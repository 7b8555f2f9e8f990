import MeshAccess.Address.Endpoint
import MeshAccess.Proofs.Numerals

/-!
# Addresses read back as they are written

The main statements are `IPv4.read?_write`, `IPv6.read?_write` and `Endpoint.read?_write`: reading
the spelling of an address gives the address. They follow the shape of the spellings. The parts
between separators hold no separator, so cutting a spelling gives the parts back, and each part is
a numeral that reads back.

The spelling of an IPv6 address leaves out a run of zero groups. `longestZeros_spec` says that it is
one, which is all that reading needs to fill it in again; that it is the longest does not matter.
-/

namespace MeshAccess

namespace Text

/-! ## Cutting -/

theorem pieces_of_not_mem {mark : Char} {p : List Char} (h : mark ∉ p) : pieces mark p = [p] := by
  induction p with
  | nil => rfl
  | cons c p ih =>
      obtain ⟨hc, hp⟩ := not_or.mp (fun h' => h (List.mem_cons.mpr h'))
      rw [pieces, if_neg (Ne.symm hc), ih hp]

theorem pieces_append {mark : Char} {p : List Char} (h : mark ∉ p) (cs : List Char) :
    pieces mark (p ++ mark :: cs) = p :: pieces mark cs := by
  induction p with
  | nil => rw [List.nil_append, pieces, if_pos rfl]
  | cons c p ih =>
      obtain ⟨hc, hp⟩ := not_or.mp (fun h' => h (List.mem_cons.mpr h'))
      rw [List.cons_append, pieces, if_neg (Ne.symm hc), ih hp]

/-- Cutting a text at its separators gives the parts that it was put together from. -/
theorem pieces_intercalate {mark : Char} {ps : List (List Char)} (hne : ps ≠ [])
    (h : ∀ p ∈ ps, mark ∉ p) : pieces mark ([mark].intercalate ps) = ps := by
  induction ps with
  | nil => exact absurd rfl hne
  | cons p ps ih =>
      have hp : mark ∉ p := h p List.mem_cons_self
      cases ps with
      | nil => rw [List.intercalate_singleton, pieces_of_not_mem hp]
      | cons q ps =>
          have hps : ∀ p ∈ q :: ps, mark ∉ p := fun p hp => h p (List.mem_cons_of_mem _ hp)
          rw [List.intercalate_cons_cons, List.append_assoc, List.singleton_append,
            pieces_append hp, ih (List.cons_ne_nil q ps) hps]

/-- What is no separator and stands in none of the parts does not stand in the text. -/
theorem not_mem_intercalate {mark c : Char} {ps : List (List Char)} (hmark : c ≠ mark)
    (h : ∀ p ∈ ps, c ∉ p) : c ∉ [mark].intercalate ps := by
  induction ps with
  | nil => exact List.not_mem_nil
  | cons p ps ih =>
      have hp : c ∉ p := h p List.mem_cons_self
      cases ps with
      | nil =>
          rw [List.intercalate_singleton]
          exact hp
      | cons q ps =>
          have hps : c ∉ [mark].intercalate (q :: ps) :=
            ih fun p hp => h p (List.mem_cons_of_mem _ hp)
          rw [List.intercalate_cons_cons]
          simp only [List.mem_append, List.mem_singleton, hp, hmark, hps, or_self,
            not_false_eq_true]

theorem dropStart?_eq_none_of_ne {m c : Char} (h : m ≠ c) (mark cs : List Char) :
    dropStart? (m :: mark) (c :: cs) = none := by
  rw [dropStart?, if_neg h]

/-- No cut falls into a text without the first character of the mark. -/
theorem splitFirst?_append {m : Char} {p : List Char} (h : m ∉ p) (mark cs : List Char) :
    splitFirst? (m :: mark) (p ++ cs)
      = (splitFirst? (m :: mark) cs).map (Prod.map (p ++ ·) id) := by
  induction p with
  | nil =>
      rw [List.nil_append]
      cases splitFirst? (m :: mark) cs <;> rfl
  | cons c p ih =>
      obtain ⟨hc, hp⟩ := not_or.mp (fun h' => h (List.mem_cons.mpr h'))
      rw [List.cons_append, splitFirst?, dropStart?_eq_none_of_ne hc, ih hp]
      cases splitFirst? (m :: mark) cs <;> rfl

theorem splitFirst?_eq_none {m : Char} {p : List Char} (h : m ∉ p) (mark : List Char) :
    splitFirst? (m :: mark) p = none := by
  have happ := splitFirst?_append h mark []
  rwa [List.append_nil] at happ

theorem splitFirst?_mark (m : Char) (mark rest : List Char) :
    splitFirst? (m :: mark) (m :: (mark ++ rest)) = some ([], rest) := by
  have hdrop : dropStart? (m :: mark) (m :: (mark ++ rest)) = some rest :=
    dropStart?_eq_some_iff.mpr rfl
  rw [splitFirst?, hdrop]

theorem splitFirst?_double (m : Char) (rest : List Char) :
    splitFirst? [m, m] (m :: m :: rest) = some ([], rest) :=
  splitFirst?_mark m [m] rest

/-- Behind a text without the first character of the mark, the mark is where the cut falls. -/
theorem splitFirst?_append_mark {m : Char} {p : List Char} (h : m ∉ p) (mark rest : List Char) :
    splitFirst? (m :: mark) (p ++ m :: (mark ++ rest)) = some (p, rest) := by
  rw [splitFirst?_append h, splitFirst?_mark, Option.map_some, Prod.map_apply, List.append_nil, id]

/-- No cut at a double separator falls into parts with single separators between them. -/
theorem splitFirst?_intercalate {m : Char} {ps : List (List Char)}
    (h : ∀ p ∈ ps, p ≠ [] ∧ m ∉ p) (cs : List Char) :
    splitFirst? [m, m] ([m].intercalate ps ++ cs)
      = (splitFirst? [m, m] cs).map (Prod.map ([m].intercalate ps ++ ·) id) := by
  induction ps with
  | nil =>
      show splitFirst? [m, m] cs = _
      cases splitFirst? [m, m] cs <;> rfl
  | cons p ps ih =>
      have hp : m ∉ p := (h p List.mem_cons_self).2
      cases ps with
      | nil =>
          rw [List.intercalate_singleton]
          exact splitFirst?_append hp [m] cs
      | cons q ps =>
          -- the separator behind `p` is followed by the first character of `q`, which is none
          obtain ⟨hqne, hq⟩ := h q (List.mem_cons_of_mem _ List.mem_cons_self)
          obtain ⟨d, ds, hd⟩ : ∃ d ds, [m].intercalate (q :: ps) = d :: ds ∧ m ≠ d := by
            obtain ⟨d, ds, rfl⟩ := List.exists_cons_of_ne_nil hqne
            have hmd : m ≠ d := fun e => hq (e ▸ List.mem_cons_self)
            cases ps with
            | nil => exact ⟨d, ds, List.intercalate_singleton, hmd⟩
            | cons r ps => exact ⟨d, _, List.intercalate_cons_cons, hmd⟩
          have hdrop : dropStart? [m, m] (m :: ([m].intercalate (q :: ps) ++ cs)) = none := by
            rw [hd.1, List.cons_append, dropStart?, if_pos rfl, dropStart?_eq_none_of_ne hd.2]
          have htail := ih fun p hp => h p (List.mem_cons_of_mem _ hp)
          rw [List.intercalate_cons_cons, List.append_assoc, List.append_assoc,
            List.singleton_append, splitFirst?_append hp, splitFirst?, hdrop, htail]
          cases splitFirst? [m, m] cs with
          | none => rfl
          | some pair => simp [Prod.map]

end Text

open Text

/-! ## IPv4 addresses -/

namespace IPv4

theorem not_mem_writeOctet {c : Char} (hc : ∀ d < 16, Positional.digit d ≠ c) (o : UInt8) :
    c ∉ writeOctet o :=
  Positional.not_mem_write (by decide) (by decide) hc o.toNat

theorem readOctet?_writeOctet (o : UInt8) : readOctet? (writeOctet o) = some o := by
  have hlt : o.toNat < 256 := o.toNat_lt
  have hlen : (writeOctet o).length ≤ 3 :=
    Positional.length_write_le (by decide) 2 (Nat.lt_of_lt_of_le hlt (by decide))
  have hread : Positional.readBelow? 10 256 (writeOctet o) = some o.toNat :=
    Positional.readBelow?_write (by decide) (by decide) hlt
  unfold readOctet?
  split
  · rename_i c cs hzero
    exact absurd (Positional.write_eq_zero_cons (by decide) (by decide) hzero).2
      (List.cons_ne_nil c cs)
  · rename_i hlong
    rw [hlong] at hlen
    simp only [List.length_cons] at hlen
    omega
  · rw [hread, Option.map_some, UInt8.ofNat_toNat]

theorem pieces_write (ip : IPv4) :
    pieces '.' ip.write = [writeOctet ip.a, writeOctet ip.b, writeOctet ip.c, writeOctet ip.d] := by
  have h : ∀ o, '.' ∉ writeOctet o := not_mem_writeOctet (by decide)
  simp only [write, List.append_assoc, List.cons_append]
  rw [pieces_append (h _), pieces_append (h _), pieces_append (h _), pieces_of_not_mem (h _)]

/-- Reading a written address gives the address back. -/
theorem read?_write (ip : IPv4) : read? ip.write = some ip := by
  rw [read?, pieces_write]
  simp only [readOctet?_writeOctet]

theorem write_ne_nil (ip : IPv4) : ip.write ≠ [] := by
  simp only [write, ne_eq, List.append_eq_nil_iff, List.cons_ne_nil, and_false, not_false_eq_true]

theorem parse_toText (ip : IPv4) : parse ip.toText = .ok ip := by
  rw [parse, toText, String.toList_ofList, read?_write]

/-- A written address consists of digits and points. -/
theorem not_mem_write {c : Char} (hc : ∀ d < 16, Positional.digit d ≠ c) (hpoint : c ≠ '.')
    (ip : IPv4) : c ∉ ip.write := by
  have h := not_mem_writeOctet hc
  simp only [write, List.mem_append, List.mem_cons, h, hpoint, or_self, not_false_eq_true]

end IPv4

/-! ## IPv6 addresses -/

namespace IPv6

theorem ext_groups {ip ip' : IPv6} (h : ip.groups = ip'.groups) : ip = ip' := by
  cases ip
  cases ip'
  obtain rfl := h
  rfl

theorem readGroup?_writeGroup (g : UInt16) : readGroup? (writeGroup g) = some g := by
  have hlt : g.toNat < 65536 := g.toNat_lt
  have hlen : (writeGroup g).length ≤ 4 :=
    Positional.length_write_le (by decide) 3 hlt
  rw [readGroup?, if_pos hlen, writeGroup, Positional.readBelow?_write (by decide) (by decide) hlt,
    Option.map_some, UInt16.ofNat_toNat]

theorem writeGroup_ne_nil (g : UInt16) : writeGroup g ≠ [] := Positional.write_ne_nil 16 _

theorem colon_not_mem_writeGroup (g : UInt16) : ':' ∉ writeGroup g :=
  Positional.not_mem_write (by decide) (by decide) (by decide) g.toNat

theorem readGroups?_map_writeGroup (tail : Bool) (gs : List UInt16) :
    readGroups? tail (gs.map writeGroup) = some gs := by
  induction gs with
  | nil => rfl
  | cons g gs ih =>
      rw [List.map_cons]
      unfold readGroups?
      simp only [readGroup?_writeGroup, ih, Option.map_some]

theorem pieces_writeGroups {gs : List UInt16} (h : gs ≠ []) :
    pieces ':' (writeGroups gs) = gs.map writeGroup := by
  refine pieces_intercalate (fun hnil => h (List.map_eq_nil_iff.mp hnil)) ?_
  intro p hp
  obtain ⟨g, -, rfl⟩ := List.mem_map.mp hp
  exact colon_not_mem_writeGroup g

theorem splitFirst?_writeGroups (gs : List UInt16) (cs : List Char) :
    splitFirst? [':', ':'] (writeGroups gs ++ cs)
      = (splitFirst? [':', ':'] cs).map (Prod.map (writeGroups gs ++ ·) id) := by
  refine splitFirst?_intercalate ?_ cs
  intro p hp
  obtain ⟨g, -, rfl⟩ := List.mem_map.mp hp
  exact ⟨writeGroup_ne_nil g, colon_not_mem_writeGroup g⟩

theorem writeGroups_cons_ne_nil (g : UInt16) (gs : List UInt16) : writeGroups (g :: gs) ≠ [] := by
  obtain ⟨c, cs, hc⟩ := List.exists_cons_of_ne_nil (writeGroup_ne_nil g)
  cases gs with
  | nil =>
      rw [writeGroups, List.map_singleton, List.intercalate_singleton]
      exact writeGroup_ne_nil g
  | cons g' gs =>
      rw [writeGroups, List.map_cons, List.map_cons, List.intercalate_cons_cons, hc]
      exact List.cons_ne_nil c _

/-- A side of two colons reads back, also where it is empty. -/
theorem readSide?_writeGroups (tail : Bool) (gs : List UInt16) :
    readSide? tail (writeGroups gs) = some gs := by
  cases gs with
  | nil => rfl
  | cons g gs =>
      rw [readSide?]
      · rw [pieces_writeGroups (List.cons_ne_nil g gs), readGroups?_map_writeGroup]
      · exact writeGroups_cons_ne_nil g gs

/-- What is reported as the first of the longest runs of zeros is a run of zeros. -/
theorem longestZeros_spec (i : Nat) (gs : List UInt16) :
    ∃ before after, gs = before ++ List.replicate (longestZeros i gs).2 0 ++ after ∧
      (longestZeros i gs).1 = i + before.length := by
  -- the run is either the one at the front or the one reported for the rest
  induction gs generalizing i with
  | nil => exact ⟨[], [], rfl, rfl⟩
  | cons g gs ih =>
      rw [longestZeros]
      split
      · refine ⟨[], (g :: gs).dropWhile (· == 0), ?_, rfl⟩
        have hzeros : (g :: gs).takeWhile (· == 0)
            = List.replicate ((g :: gs).takeWhile (· == 0)).length 0 := by
          refine List.eq_replicate_iff.mpr ⟨rfl, ?_⟩
          intro h hh
          exact eq_of_beq (List.all_eq_true.mp (List.all_takeWhile) h hh)
        rw [List.nil_append, ← hzeros, List.takeWhile_append_dropWhile]
      · obtain ⟨before, after, hgs, hstart⟩ := ih (i + 1)
        refine ⟨g :: before, after, ?_, ?_⟩
        · rw [List.cons_append, List.cons_append, ← hgs]
        · rw [hstart, List.length_cons]
          omega

/-- What stands before and behind the run that is left out. -/
theorem take_drop_of_eq {gs before after : List UInt16} {start n : Nat}
    (h : gs = before ++ List.replicate n 0 ++ after) (hstart : start = 0 + before.length) :
    gs.take start = before ∧ gs.drop (start + n) = after := by
  have hrun : start + n = (before ++ List.replicate n 0).length := by
    rw [hstart, List.length_append, List.length_replicate, Nat.zero_add]
  constructor
  · rw [h, hstart, Nat.zero_add, List.append_assoc, List.take_left]
  · rw [hrun, h, List.drop_left]

theorem fill?_eq {ip : IPv6} {before after : List UInt16} {n : Nat} (hn : 2 ≤ n)
    (h : ip.groups = before ++ List.replicate n 0 ++ after) : fill? before after = some ip := by
  have hlen := congrArg List.length h
  rw [ip.length_groups, List.length_append, List.length_append, List.length_replicate] at hlen
  -- two zeros or more are left out, so two colons stand for what is missing to eight groups
  have hsum : before.length + after.length ≤ 7 := by omega
  have hzeros : 8 - before.length - after.length = n := by omega
  rw [fill?, dif_pos hsum]
  refine congrArg some (ext_groups ?_)
  rw [h, ← hzeros]

/-- An address that is spelled with two colons reads back. -/
theorem read?_compressed {ip : IPv6} {before after : List UInt16} {n : Nat} (hn : 2 ≤ n)
    (h : ip.groups = before ++ List.replicate n 0 ++ after) :
    read? (writeGroups before ++ [':', ':'] ++ writeGroups after) = some ip := by
  have hsplit : splitFirst? [':', ':'] (writeGroups before ++ ':' :: ':' :: writeGroups after)
      = some (writeGroups before, writeGroups after) := by
    rw [splitFirst?_writeGroups, splitFirst?_double, Option.map_some, Prod.map_apply,
      List.append_nil, id]
  rw [List.append_assoc]
  show read? (writeGroups before ++ ':' :: ':' :: writeGroups after) = some ip
  rw [read?, hsplit]
  simp only [readSide?_writeGroups, fill?_eq hn h]

/-- An address that is spelled group by group reads back. -/
theorem read?_plain (ip : IPv6) : read? (writeGroups ip.groups) = some ip := by
  have hne : ip.groups ≠ [] := by
    intro hnil
    have hlen := ip.length_groups
    rw [hnil] at hlen
    exact nomatch hlen
  have hsplit : splitFirst? [':', ':'] (writeGroups ip.groups) = none := by
    have happ := splitFirst?_writeGroups ip.groups []
    rwa [List.append_nil] at happ
  rw [read?, hsplit, pieces_writeGroups hne]
  simp only [readGroups?_map_writeGroup, ip.length_groups, dite_true]

theorem embedded_octets (g h : UInt16) :
    embedded ⟨(g / 256).toUInt8, g.toUInt8, (h / 256).toUInt8, h.toUInt8⟩ = [g, h] := by
  have hsplit : ∀ g : UInt16, (g / 256).toUInt8.toUInt16 * 256 + g.toUInt8.toUInt16 = g := by
    intro g
    have hlt : g.toNat < 65536 := g.toNat_lt
    refine UInt16.toNat_inj.mp ?_
    simp
    omega
  rw [embedded, hsplit, hsplit]

/-- The spelling of an IPv4 address is no group. -/
theorem readGroup?_write_ipv4 (ip : IPv4) : readGroup? ip.write = none := by
  have hpoint : '.' ∈ ip.write := by
    simp [IPv4.write]
  rw [readGroup?, Positional.readBelow?, Positional.read?_eq_none hpoint (by decide)]
  split <;> rfl

/-- The side of two colons that embeds an IPv4 address behind `ffff:`. -/
theorem readSide?_embedding (v4 : IPv4) :
    readSide? true (['f', 'f', 'f', 'f', ':'] ++ v4.write) = some (0xffff :: embedded v4) := by
  have hpieces : pieces ':' (['f', 'f', 'f', 'f'] ++ ':' :: v4.write)
      = [['f', 'f', 'f', 'f'], v4.write] := by
    rw [pieces_append (by decide),
      pieces_of_not_mem (IPv4.not_mem_write (by decide) (by decide) v4)]
  have hffff : readGroup? ['f', 'f', 'f', 'f'] = some 0xffff := by decide
  show readGroups? true (pieces ':' (['f', 'f', 'f', 'f'] ++ ':' :: v4.write)) = _
  rw [hpieces]
  unfold readGroups?
  simp only [hffff]
  unfold readGroups?
  simp only [readGroup?_write_ipv4, IPv4.read?_write, if_true, Option.map_some]

/-- An address that embeds an IPv4 address and is spelled with points reads back. -/
theorem read?_mapped {ip : IPv6} {v4 : IPv4} (h : ip.mapped? = some v4) :
    read? ([':', ':', 'f', 'f', 'f', 'f', ':'] ++ v4.write) = some ip := by
  rw [mapped?] at h
  split at h
  · rename_i g k hgroups
    obtain rfl := Option.some.inj h
    have hfill : fill? [] [0xffff, g, k] = some ip := fill?_eq (n := 5) (by decide) hgroups
    have hrest := readSide?_embedding ⟨(g / 256).toUInt8, g.toUInt8, (k / 256).toUInt8, k.toUInt8⟩
    rw [embedded_octets] at hrest
    rw [List.cons_append, List.cons_append, read?, splitFirst?_double]
    have hfront : readSide? false [] = some [] := rfl
    simp only [hfront, hrest, hfill]
  · exact nomatch h

/-- Reading a written address gives the address back. -/
theorem read?_write (ip : IPv6) : read? ip.write = some ip := by
  rw [write]
  cases hm : ip.mapped? with
  | some v4 => exact read?_mapped hm
  | none =>
      obtain ⟨before, after, hgroups, hstart⟩ := longestZeros_spec 0 ip.groups
      simp only
      split
      · rename_i hn
        obtain ⟨htake, hdrop⟩ := take_drop_of_eq hgroups hstart
        rw [htake, hdrop]
        exact read?_compressed hn hgroups
      · exact read?_plain ip

theorem parse_toText (ip : IPv6) : parse ip.toText = .ok ip := by
  rw [parse, toText, String.toList_ofList, read?_write]

/-- A written address consists of digits, colons and points. -/
theorem not_mem_write {c : Char} (hc : ∀ d < 16, Positional.digit d ≠ c) (hcolon : c ≠ ':')
    (hpoint : c ≠ '.') (ip : IPv6) : c ∉ ip.write := by
  have hgroups : ∀ gs, c ∉ writeGroups gs := by
    intro gs
    refine not_mem_intercalate hcolon ?_
    intro p hp
    obtain ⟨g, -, rfl⟩ := List.mem_map.mp hp
    exact Positional.not_mem_write (by decide) (by decide) hc g.toNat
  rw [write]
  cases ip.mapped? with
  | some v4 =>
      have hv4 := IPv4.not_mem_write hc hpoint v4
      -- the `ffff` in front of the points consists of digits too
      have hf : c ≠ 'f' := fun h => hc 15 (by decide) h.symm
      simp [hv4, hf, hcolon]
  | none =>
      simp only
      split
      · simp [hgroups, hcolon]
      · exact hgroups _

end IPv6

/-! ## Endpoints -/

namespace Endpoint

theorem readPort?_write (port : UInt16) :
    readPort? (Positional.write 10 port.toNat) = some port := by
  rw [readPort?, Positional.readBelow?_write (by decide) (by decide) port.toNat_lt,
    Option.map_some, UInt16.ofNat_toNat]

theorem readScope?_write (scope : UInt32) :
    readScope? (Positional.write 10 scope.toNat) = some scope := by
  rw [readScope?, Positional.readBelow?_write (by decide) (by decide) scope.toNat_lt,
    Option.map_some, UInt32.ofNat_toNat]

/-- The spelling of a scope behind an address; a scope of zero is not spelled. -/
def writeScope (scope : UInt32) : List Char :=
  if scope = 0 then [] else '%' :: Positional.write 10 scope.toNat

theorem readScoped?_write (ip : IPv6) (scope : UInt32) :
    readScoped? (ip.write ++ writeScope scope) = some (ip, scope) := by
  have hip : '%' ∉ ip.write := IPv6.not_mem_write (by decide) (by decide) (by decide) ip
  rw [readScoped?, writeScope]
  by_cases h : scope = 0
  · rw [if_pos h, List.append_nil, splitFirst?_eq_none hip, h]
    simp only [IPv6.read?_write, Option.map_some]
  · have hsplit := splitFirst?_append_mark hip [] (Positional.write 10 scope.toNat)
    rw [List.nil_append] at hsplit
    rw [if_neg h, hsplit]
    simp only [IPv6.read?_write, readScope?_write]

theorem not_mem_writeScope {c : Char} (hc : ∀ d < 16, Positional.digit d ≠ c) (hpercent : c ≠ '%')
    (scope : UInt32) : c ∉ writeScope scope := by
  have hdigits : c ∉ Positional.write 10 scope.toNat :=
    Positional.not_mem_write (by decide) (by decide) hc scope.toNat
  rw [writeScope]
  split
  · exact List.not_mem_nil
  · simp only [List.mem_cons, hpercent, hdigits, or_self, not_false_eq_true]

theorem read?_write_v4 (ip : IPv4) (port : UInt16) :
    read? (v4 ip port).write = some (v4 ip port) := by
  have hcolon : ':' ∉ ip.write := IPv4.not_mem_write (by decide) (by decide) ip
  have hbracket : '[' ∉ ip.write := IPv4.not_mem_write (by decide) (by decide) ip
  have hsplit := splitFirst?_append_mark hcolon [] (Positional.write 10 port.toNat)
  rw [List.nil_append] at hsplit
  unfold read?
  split
  · -- no bracket stands at the front, since none stands in the address
    rename_i cs hcs
    obtain ⟨c, ds, hc⟩ := List.exists_cons_of_ne_nil ip.write_ne_nil
    rw [write, hc, List.cons_append] at hcs
    rw [hc, (List.cons.inj hcs).1] at hbracket
    exact absurd List.mem_cons_self hbracket
  · rw [write, hsplit]
    simp only [IPv4.read?_write, readPort?_write]

theorem read?_write_v6 (ip : IPv6) (scope : UInt32) (port : UInt16) :
    read? (v6 ip scope port).write = some (v6 ip scope port) := by
  have hip : ']' ∉ ip.write := IPv6.not_mem_write (by decide) (by decide) (by decide) ip
  have hscope : ']' ∉ writeScope scope := not_mem_writeScope (by decide) (by decide) scope
  have hbracket : ']' ∉ ip.write ++ writeScope scope :=
    fun h => (List.mem_append.mp h).elim hip hscope
  have hwrite : (v6 ip scope port).write = '[' :: ((ip.write ++ writeScope scope)
      ++ ']' :: ([':'] ++ Positional.write 10 port.toNat)) := by
    simp [write, writeScope]
  rw [hwrite, read?, splitFirst?_append_mark hbracket]
  simp only [readScoped?_write, readPort?_write]

/-- Reading a written endpoint gives the endpoint back. -/
theorem read?_write (e : Endpoint) : read? e.write = some e := by
  cases e with
  | v4 ip port => exact read?_write_v4 ip port
  | v6 ip scope port => exact read?_write_v6 ip scope port

theorem parse_toText (e : Endpoint) : parse e.toText = .ok e := by
  rw [parse, toText, String.toList_ofList, read?_write]

end Endpoint

end MeshAccess
