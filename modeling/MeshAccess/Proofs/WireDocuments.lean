import MeshAccess.CommandLine.Run
import MeshAccess.Proofs.Addresses
import MeshAccess.Proofs.Encodings

/-!
# Wire documents read back

A destination node reads the document that was written for it. Every type of the document has one
fact here that its JSON value is a written form of it (`Encodes`), and `load_written` follows for
the whole document: in the compact form and in the one that is printed, a document is read as
itself, so that a text tells which document it was written for.

Nothing is assumed of the document. Its texts may hold any characters and its rules may make no
sense; a flag that is not set, an optional value that is missing and a list of recorders without
items are left out, and each stands for what is read in its place.
-/

namespace MeshAccess.Wire

open Json (Reading Record Encodes)
open Json.Record (Reads)

/-! ## One fact for each type -/

theorem Principal.encodes (p : Principal) : Encodes Principal.decode p.toJson p :=
  .record ((Reads.given (.text p.address)).map Principal.mk)

theorem RecordingFailure.encodes (f : RecordingFailure) :
    Encodes RecordingFailure.decode f.toJson f :=
  .record (((Reads.given (.text f.rejectMessage)).and (.given (.text f.terminateMessage))).map _)

theorem encodes_recorders (es : List Endpoint) :
    Encodes (Reading.asList (Reading.asParsed Endpoint.parse)) (Json.texts (es.map Endpoint.toText))
      es := by
  rw [Json.texts, List.map_map]
  exact .list fun e _ => .parsed e.parse_toText

theorem Action.encodes (a : Action) : Encodes Action.decode a.toJson a := by
  have hfailure : (Record.optional "onRecordingFailure" RecordingFailure.decode).Reads
      ["onRecordingFailure"] _ a.onRecordingFailure :=
    .optional RecordingFailure.encodes (fun _ h => nomatch h) a.onRecordingFailure
  rw [Action.toJson]
  simp only [List.append_assoc]
  exact .record (((Reads.flag "accept" a.accept).and
    ((Reads.flag "allowAgentForwarding" a.agentForwarding).and
      ((Reads.flag "allowLocalPortForwarding" a.localPortForwarding).and
        ((Reads.optionalText "holdAndDelegate" a.holdAndDelegate).and
          ((Reads.optionalText "message" a.message).and
            ((Reads.items encodes_recorders a.recorders).and hfailure)))))).map _)

theorem encodes_logins (logins : SortedMap String) :
    Encodes (Reading.asMap Reading.asText) (loginsToJson logins) logins :=
  .map fun e _ => .text e.2

theorem Rule.encodes (r : Rule) : Encodes Rule.decode r.toJson r :=
  .record (((Reads.given (.list fun p _ => p.encodes)).and
    ((Reads.given (encodes_logins r.sshUsers)).and (.given r.action.encodes))).map _)

namespace Document

theorem encodes (d : Document) : Encodes decode d.toJson d :=
  .record ((Reads.given (.list fun r _ => r.encodes)).map Document.mk)

/-- The texts that are written for a document: the compact one, and the JSON that is printed. -/
inductive Written (d : Document) : String → Prop where
  | compact : Written d d.compact
  | printed : Written d (CommandLine.OutputFormat.json.render d)

/-- What is written for a document is read as that document. -/
theorem load_of_written {d : Document} {text : String} (h : Written d text) :
    load text = .ok d := by
  cases h with
  | compact => exact d.encodes.read_compact
  | printed => exact d.encodes.read_pretty

/-- Both written forms of a document are read as the document, so no text is written for two
documents. -/
theorem load_written (d : Document) :
    load d.compact = .ok d ∧ load (CommandLine.OutputFormat.json.render d) = .ok d ∧
      ∀ e text, Written d text → Written e text → e = d := by
  refine ⟨load_of_written .compact, load_of_written .printed, ?_⟩
  intro e text hd he
  exact Except.ok.inj ((load_of_written he).symm.trans (load_of_written hd))

end Document

end MeshAccess.Wire
