import MeshAccess.Proofs.Addresses
import MeshAccess.Proofs.Encodings
import MeshAccess.Snapshot

/-!
# Snapshots written and loaded again

The document of a snapshot is a written form of it (`Snapshot.encodes`), and loading it leaves only
the check of the nodes (`load_toJson_iff`). A snapshot that was loaded has passed that check, so
`load_rewritten` follows: what was loaded once is loaded again from its own document, and is the
same in every field.

Two of the types carry a proof that their text is acceptable. That proof is what lets the text in
again: `Tag.parse_text` and `Email.parse_text`. Addresses are given back by `IPv4.parse_toText` and
`IPv6.parse_toText`, however they were spelled before.
-/

namespace MeshAccess

open Json (Encodes Reading Record)
open Json.Record (Reads)

/-! ## Numbers -/

theorem Json.Encodes.uint64 (n : UInt64) : Encodes Reading.asUInt64 (.natural n.toNat) n := by
  refine ⟨.natural n.toNat_lt, ?_⟩
  show (if n.toNat < UInt64.size then Except.ok (UInt64.ofNat n.toNat) else _) = .ok n
  rw [if_pos n.toNat_lt_size, UInt64.ofNat_toNat]

/-- What a value is made from is written in place of the value. -/
theorem Json.Encodes.made {α β : Type} {decode : Reading → Except Json.Fault α} {v : Json} {a : α}
    (make : α → β) (h : Encodes decode v a) :
    Encodes (fun r => (decode r).map make) v (make a) := by
  refine ⟨h.readable, ?_⟩
  rw [h.decoded]
  rfl

/-! ## One fact for each type -/

/-- The text of a tag is read as the tag. -/
theorem Tag.parse_text (t : Tag) : parse t.text = .ok t := by
  rw [parse, ofText_eq_ok_iff.mpr rfl]
  rfl

/-- The text of an address is read as the address. -/
theorem Email.parse_text (e : Email) : parse e.text = .ok e := by
  have hofText : ofText? e.text = some e := dif_pos e.valid
  rw [parse, hofText]

theorem User.encodes_id (id : UserId) : Encodes decodeId (.natural id.value.toNat) id :=
  (Encodes.uint64 id.value).made UserId.mk

theorem User.encodes (u : User) : Encodes decode u.toJson u :=
  .record (((Reads.given (encodes_id u.id)).and
    ((Reads.given (.text u.name)).and
      (.optional (fun e => .parsed e.parse_text) (fun _ h => nomatch h) u.email))).map _)

namespace Node

theorem encodes_id (id : NodeId) : Encodes decodeId (.natural id.value.toNat) id :=
  (Encodes.uint64 id.value).made NodeId.mk

theorem encodes_tags (ts : List Tag) :
    Encodes (Reading.asList Tag.decode) (Json.texts (ts.map Tag.text)) ts := by
  rw [Json.texts, List.map_map]
  exact .list fun t _ => .parsed t.parse_text

theorem encodes (n : Node) : Encodes decode n.toJson n := by
  have hipv4 : (Record.optional "ipv4" (Reading.asParsed IPv4.parse)).Reads ["ipv4"] _ n.ipv4 :=
    .optional (fun ip => .parsed ip.parse_toText) (fun _ h => nomatch h) n.ipv4
  have hipv6 : (Record.optional "ipv6" (Reading.asParsed IPv6.parse)).Reads ["ipv6"] _ n.ipv6 :=
    .optional (fun ip => .parsed ip.parse_toText) (fun _ h => nomatch h) n.ipv6
  have huser : (Record.optional "user_id" User.decodeId).Reads ["user_id"] _ n.userId :=
    .optional User.encodes_id (fun _ h => nomatch h) n.userId
  rw [toJson]
  simp only [List.cons_append, List.append_assoc]
  exact .record (((Reads.given (encodes_id n.id)).and
    ((Reads.given (.text n.hostname)).and
      (hipv4.and (hipv6.and (huser.and (.given (encodes_tags n.tags))))))).map _)

end Node

namespace Snapshot

variable {s : Snapshot}

/-- The document of any snapshot is a written form of it. -/
theorem encodes (s : Snapshot) : Encodes decode s.toJson s :=
  .record (((Reads.given (.list fun u _ => u.encodes)).and
    (.given (.list fun n _ => n.encodes))).map _)

/-! ## Loading -/

/-- A text is loaded as a snapshot when it holds the snapshot and all nodes of it are accepted. -/
theorem load_eq_ok_iff {text : String} :
    load text = .ok s ↔ Json.Document.read decode text = .ok s ∧ firstFault? s.nodes = none := by
  rw [load]
  cases hread : Json.Document.read decode text with
  | error f =>
      constructor
      · intro h
        cases h
      · rintro ⟨h, -⟩
        cases h
  | ok t =>
      constructor
      · intro h
        cases hf : firstFault? t.nodes with
        | some f =>
            simp only [hf] at h
            cases h
        | none =>
            simp only [hf] at h
            obtain rfl : t = s := Except.ok.inj h
            exact ⟨rfl, hf⟩
      · rintro ⟨h, hf⟩
        obtain rfl : t = s := Except.ok.inj h
        simp only [hf]

/-- A text whose document is that of a snapshot with acceptable nodes is accepted. -/
theorem load_eq_ok {text : String} {d : Json.Document} (hd : Json.Document.ofText text = d)
    (hv : (decode d.value).toOption = some s) (ht : d.trailing = false)
    (hf : firstFault? s.nodes = none) : load text = .ok s :=
  load_eq_ok_iff.mpr ⟨Json.Document.read_eq_ok hd (Json.eq_ok_of_toOption hv) ht, hf⟩

/-- The document of a snapshot is loaded as the snapshot exactly when all its nodes are accepted. -/
theorem load_toJson_iff : load s.toJson.compact = .ok s ↔ firstFault? s.nodes = none := by
  rw [load_eq_ok_iff]
  exact and_iff_right s.encodes.read_compact

/-- **A snapshot survives being written and loaded.** Whatever text a snapshot was loaded from, its
compact document is loaded as the same snapshot. -/
theorem load_rewritten {text : String} (h : load text = .ok s) :
    load s.toJson.compact = .ok s :=
  load_toJson_iff.mpr (load_eq_ok_iff.mp h).2

/-! ## A snapshot in loose forms -/

namespace LooseForms

/-- The greatest numbers, an address with a display name, nodes and a user as arrays, two nodes of
one number, and IPv6 addresses that are written in another form than they are given in. -/
def text : String :=
  "\x7b\"nodes\":[\x7b\"hostname\":\"desk\",\"id\":18446744073709551615,
  \"ipv6\":\"::ffff:102:304\",\"user_id\":18446744073709551615\x7d,
  [1,\"build\",\"10.0.0.1\",\"0:0:0:0:0:0:0:0\",null,[\"tag:build\"]],
  [1,\"build\",null,\"2001:0DB8:0:0:1:0:0:1\"]],
  \"users\":[[18446744073709551615,\"ann\",\"Ann <ann@EXAMPLE.com>\"],
  \x7b\"name\":\"\",\"id\":0\x7d]\x7d"

/-- The snapshot that the text holds. -/
def snapshot : Snapshot where
  users := [⟨⟨18446744073709551615⟩, "ann", some ⟨"Ann <ann@EXAMPLE.com>", by decide +kernel⟩⟩,
    ⟨⟨0⟩, "", none⟩]
  nodes := [
    ⟨⟨18446744073709551615⟩, "desk", none, some ⟨[0, 0, 0, 0, 0, 0xffff, 0x102, 0x304], rfl⟩,
      some ⟨18446744073709551615⟩, []⟩,
    ⟨⟨1⟩, "build", some ⟨10, 0, 0, 1⟩, some ⟨[0, 0, 0, 0, 0, 0, 0, 0], rfl⟩, none,
      [⟨"tag:build", by decide⟩]⟩,
    ⟨⟨1⟩, "build", none, some ⟨[0x2001, 0xdb8, 0, 0, 1, 0, 0, 1], rfl⟩, none, []⟩]

set_option maxRecDepth 2000 in
theorem load_text : load text = .ok snapshot :=
  load_eq_ok (Json.Document.ofText_eq_build rfl) (by decide +kernel) (by decide +kernel)
    (by decide +kernel)

end LooseForms

/-- The snapshot is loaded, its addresses are written in their own forms, and its document is loaded
as the same snapshot. -/
theorem load_rewritten_of_looseForms :
    load LooseForms.text = .ok LooseForms.snapshot ∧
      LooseForms.snapshot.nodes.map Node.addresses
        = [["::ffff:1.2.3.4"], ["10.0.0.1", "::"], ["2001:db8::1:0:0:1"]] ∧
      load LooseForms.snapshot.toJson.compact = .ok LooseForms.snapshot :=
  ⟨LooseForms.load_text, by decide +kernel, load_rewritten LooseForms.load_text⟩

end Snapshot

end MeshAccess
