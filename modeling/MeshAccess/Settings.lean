import MeshAccess.Json.Record
import MeshAccess.Json.Value

/-!
# Settings

What an administrator may set about compiled documents: the port of session recorders, the start
of the URL that held sessions are delegated to, and the texts shown to users. Every setting has a
default.
-/

namespace MeshAccess

/-- The settings of the compiler. -/
structure Settings where
  recorderPort : UInt16 := 80
  checkUrlStart : String := "https://unused/machine/ssh/action"
  recordingMessage : String := "# This session is being recorded.\n"
  rejectMessage : String := "# Session rejected: failed to start session recording."
  terminateMessage : String := "# Session terminated: failed to record session."
  deriving DecidableEq, Inhabited

namespace Settings

/-- The defaults of all settings. -/
def standard : Settings := {}

/-- The text without the slashes at its end. -/
def dropSlashes (s : String) : String :=
  String.ofList (s.toList.reverse.dropWhile (· == '/')).reverse

/-- The URL that a session is delegated to when it is checked every `period`. -/
def checkUrl (s : Settings) (period : String) : String :=
  dropSlashes s.checkUrlStart ++ "/$SRC_NODE_ID/to/$DST_NODE_ID/" ++ period

/-! ## Documents -/

/-- The fields of the settings. -/
def record : Json.Record Settings :=
  ((Json.Record.withDefault "recorder_port" Json.Reading.asUInt16 standard.recorderPort).and
    ((Json.Record.withDefault "check_url_prefix" Json.Reading.asText standard.checkUrlStart).and
      ((Json.Record.withDefault "recording_message" Json.Reading.asText
          standard.recordingMessage).and
        ((Json.Record.withDefault "reject_message" Json.Reading.asText
            standard.rejectMessage).and
          (Json.Record.withDefault "terminate_message" Json.Reading.asText
            standard.terminateMessage))))).map
    fun (recorderPort, checkUrlStart, recordingMessage, rejectMessage, terminateMessage) =>
      { recorderPort, checkUrlStart, recordingMessage, rejectMessage, terminateMessage }

/-- The settings in a document. -/
def decode (r : Json.Reading) : Except Json.Fault Settings := record.read r

/-- The document of the settings. -/
def toJson (s : Settings) : Json :=
  .object [("recorder_port", .natural s.recorderPort.toNat),
    ("check_url_prefix", .text s.checkUrlStart),
    ("recording_message", .text s.recordingMessage),
    ("reject_message", .text s.rejectMessage),
    ("terminate_message", .text s.terminateMessage)]

end Settings

end MeshAccess
