import LogRelay.MessagePack.Reader
import LogRelay.Proofs.List.Traverse
import LogRelay.Proofs.MessagePack.Grammar
import LogRelay.Proofs.Value.Structure

/-!
# Heads of encodings

What the reader makes of the first bytes of an encoding, up to the parts of a container. Every
header of the grammar is read as what it announces, and whatever is read as a head is one of the
grammar.
-/

namespace LogRelay.MessagePack

/-! ## Words and contents -/

theorem readWord_eq_ok_iff {width number : Nat} {p s : List UInt8} :
    readWord width p = .ok (number, s) ↔
      ∃ word, p = word ++ s ∧ word.length = width ∧ Wire.ofBigEndian word = number := by
  unfold readWord
  cases hcut : Wire.cut? width p with
  | none =>
      refine ⟨fun h => (nomatch h), ?_⟩
      rintro ⟨word, rfl, rfl, -⟩
      rw [Wire.cut?_append] at hcut
      cases hcut
  | some found =>
      obtain ⟨front, rest⟩ := found
      obtain ⟨rfl, hlen⟩ := Wire.cut?_eq_some_iff.mp hcut
      constructor
      · intro h
        cases h
        exact ⟨front, rfl, hlen, rfl⟩
      · rintro ⟨word, happend, hwidth, rfl⟩
        obtain ⟨rfl, rfl⟩ := List.append_inj happend (hlen.trans hwidth.symm)
        rfl

theorem readWord_append (word s : List UInt8) :
    readWord word.length (word ++ s) = .ok (Wire.ofBigEndian word, s) :=
  readWord_eq_ok_iff.mpr ⟨word, rfl, rfl, rfl⟩

theorem readContents_eq_ok_iff {length : Nat} {p contents s : List UInt8} :
    readContents length p = .ok (contents, s) ↔ p = contents ++ s ∧ contents.length = length := by
  unfold readContents
  rw [← Wire.cut?_eq_some_iff]
  cases Wire.cut? length p with
  | none => exact ⟨fun h => (nomatch h), fun h => (nomatch h)⟩
  | some found => exact ⟨fun h => by cases h; rfl, fun h => by cases h; rfl⟩

theorem readContents_append (contents s : List UInt8) :
    readContents contents.length (contents ++ s) = .ok (contents, s) :=
  readContents_eq_ok_iff.mpr ⟨rfl, rfl⟩

/-! ## Markers -/

/-- What a byte with the given meaning is in the tables of the grammar. -/
def Marker.Spelled (b : UInt8) : Marker → Prop
  | .smallInt i => if b.toNat < 128 then i = b.toNat else 224 ≤ b.toNat ∧ i = b.toNat - 256
  | .smallMap count => b.toNat = 0x80 + count ∧ count < 16
  | .smallArray count => b.toNat = 0x90 + count ∧ count < 16
  | .smallStr length => b.toNat = 0xa0 + length ∧ length < 32
  | .nil => b = 0xc0
  | .reserved => b = 0xc1
  | .bool truth => b = if truth then 0xc3 else 0xc2
  | .bin width => (b, width) ∈ Heading.bin.wide
  | .extension width =>
      (b, width) ∈ Heading.extension.wide ∨ width = 0 ∧ b ∈ fixedExtensions.map Prod.fst
  | .float32 => b = 0xca
  | .float64 => b = 0xcb
  | .uint width => (b, width) ∈ Heading.unsigned.wide
  | .int width => (b, width) ∈ signedMarkers
  | .str width => (b, width) ∈ Heading.str.wide
  | .array width => (b, width) ∈ Heading.array.wide
  | .map width => (b, width) ∈ Heading.map.wide

instance (b : UInt8) (m : Marker) : Decidable (m.Spelled b) := by
  cases m <;> unfold Marker.Spelled <;> infer_instance

theorem Marker.spelled_ofByte (b : UInt8) : (Marker.ofByte b).Spelled b := by
  have htable : ∀ i : Fin 256, (Marker.ofByte (.ofFin i)).Spelled (.ofFin i) := by decide +kernel
  exact htable b.toFin

theorem Marker.ofByte_of_spelled {b : UInt8} {m : Marker} (h : m.Spelled b) :
    Marker.ofByte b = m := by
  cases m with
  | smallInt i => unfold Marker.Spelled at h; unfold Marker.ofByte; grind
  | smallMap count => unfold Marker.Spelled at h; unfold Marker.ofByte; grind
  | smallArray count => unfold Marker.Spelled at h; unfold Marker.ofByte; grind
  | smallStr length => unfold Marker.Spelled at h; unfold Marker.ofByte; grind
  | nil => cases h; rfl
  | reserved => cases h; rfl
  | bool truth => cases truth <;> cases h <;> rfl
  | bin width =>
      have htable : ∀ p ∈ Heading.bin.wide, Marker.ofByte p.1 = .bin p.2 := by decide
      exact htable _ h
  | extension width =>
      have htable : ∀ p ∈ Heading.extension.wide, Marker.ofByte p.1 = .extension p.2 := by decide
      have hfixed : ∀ b ∈ fixedExtensions.map Prod.fst, Marker.ofByte b = .extension 0 := by
        decide +kernel
      rcases h with h | ⟨rfl, h⟩
      · exact htable _ h
      · exact hfixed _ h
  | float32 => cases h; rfl
  | float64 => cases h; rfl
  | uint width =>
      have htable : ∀ p ∈ Heading.unsigned.wide, Marker.ofByte p.1 = .uint p.2 := by decide
      exact htable _ h
  | int width =>
      have htable : ∀ p ∈ signedMarkers, Marker.ofByte p.1 = .int p.2 := by decide
      exact htable _ h
  | str width =>
      have htable : ∀ p ∈ Heading.str.wide, Marker.ofByte p.1 = .str p.2 := by decide
      exact htable _ h
  | array width =>
      have htable : ∀ p ∈ Heading.array.wide, Marker.ofByte p.1 = .array p.2 := by decide
      exact htable _ h
  | map width =>
      have htable : ∀ p ∈ Heading.map.wide, Marker.ofByte p.1 = .map p.2 := by decide
      exact htable _ h

theorem readHead_of_spelled {b : UInt8} {m : Marker} (h : m.Spelled b) (rest : List UInt8) :
    readHead (b :: rest) = readAfter m rest := by
  rw [readHead, Marker.ofByte_of_spelled h]

/-! ## Values without parts -/

/-- The value of an integer: signed if it fits. -/
def ofInteger (i : Int) : Value :=
  if i < 2 ^ 63 then .int (Int64.ofInt i) else .uint (UInt64.ofNat i.toNat)

theorem ofInteger_of_lt {i : Int} (h : i < 2 ^ 63) : ofInteger i = .int (Int64.ofInt i) :=
  if_pos h

theorem ofUnsigned_eq_ofInteger (n : Nat) : ofUnsigned n = ofInteger n := by
  unfold ofUnsigned ofInteger
  by_cases h : n < 2 ^ 63
  · rw [if_pos h, if_pos (by omega)]
    rfl
  · rw [if_neg h, if_neg (by omega)]
    rfl

/-- The value of a tree without parts. -/
def Tree.leaf? : Tree → Option Value
  | .nil => some .nil
  | .bool b => some (.bool b)
  | .integer i => some (ofInteger i)
  | .float32 word => some (.float (Binary64.ofBinary32 word))
  | .float64 x => some (.float x)
  | .str contents => some (ofStr contents)
  | .bin contents => some (.bytes contents)
  | .extension _ _ | .array _ | .map _ => none

theorem means_integer {i : Int} (lower : -2 ^ 63 ≤ i) (upper : i < 2 ^ 64) :
    Means (.integer i) (ofInteger i) := by
  unfold ofInteger
  split
  · next h =>
    have hmeans := Means.int (i := Int64.ofInt i)
    rwa [Int64.toInt_ofInt_of_le lower h] at hmeans
  · next h =>
    have hsize : i.toNat < UInt64.size := by
      change i.toNat < 2 ^ 64
      omega
    have hn : (UInt64.ofNat i.toNat).toNat = i.toNat := UInt64.toNat_ofNat_of_lt' hsize
    have hmeans := Means.uint (u := UInt64.ofNat i.toNat) (by omega)
    rwa [hn, Int.toNat_of_nonneg (by omega)] at hmeans

theorem means_str (contents : List UInt8) : Means (.str contents) (ofStr contents) := by
  unfold ofStr
  split
  · next h =>
    rw [← Text.utf8_of_ofUtf8? h]
    exact .text
  · next h => exact .raw h

/-! ## Reading what the grammar allows -/

theorem readHead_array {count : Nat} {header : List UInt8}
    (h : Announced .array count header) (s : List UInt8) :
    readHead (header ++ s) = .ok (.array count, s) := by
  cases h with
  | @small marker _ _ range value bound =>
      cases range
      have hmarker : (Marker.smallArray count).Spelled marker := ⟨value, bound⟩
      exact readHead_of_spelled hmarker s
  | @wide marker word marked value =>
      have hmarker : (Marker.array word.length).Spelled marker := marked
      rw [List.cons_append, readHead_of_spelled hmarker, readAfter, readWord_append, value]
      rfl

theorem readHead_map {count : Nat} {header : List UInt8}
    (h : Announced .map count header) (s : List UInt8) :
    readHead (header ++ s) = .ok (.map count, s) := by
  cases h with
  | @small marker _ _ range value bound =>
      cases range
      have hmarker : (Marker.smallMap count).Spelled marker := ⟨value, bound⟩
      exact readHead_of_spelled hmarker s
  | @wide marker word marked value =>
      have hmarker : (Marker.map word.length).Spelled marker := marked
      rw [List.cons_append, readHead_of_spelled hmarker, readAfter, readWord_append, value]
      rfl

theorem readHead_extension {kind : UInt8} {contents encoding : List UInt8}
    (h : Written (.extension kind contents) encoding) (s : List UInt8) :
    ∃ rest, readHead (encoding ++ s) = .ok (.extension, rest) := by
  cases h with
  | @fixedExtension marker _ _ marked =>
      have hmarker : (Marker.extension 0).Spelled marker :=
        .inr ⟨rfl, List.mem_map_of_mem marked⟩
      exact ⟨kind :: (contents ++ s), readHead_of_spelled hmarker _⟩
  | extension announced =>
      cases announced with
      | small range => cases range
      | @wide marker word marked value =>
          have hmarker : (Marker.extension word.length).Spelled marker := .inl marked
          refine ⟨kind :: (contents ++ s), ?_⟩
          rw [List.cons_append, List.cons_append, readHead_of_spelled hmarker, readAfter,
            List.append_assoc, readWord_append]
          rfl

theorem readHead_unsigned {n : Nat} {header : List UInt8}
    (h : Announced .unsigned n header) (s : List UInt8) :
    readHead (header ++ s) = .ok (.leaf (ofInteger n), s) := by
  cases h with
  | @small marker _ _ range value bound =>
      cases range
      have hmarker : (Marker.smallInt n).Spelled marker := by
        rw [Marker.Spelled, if_pos (by omega)]
        omega
      rw [ofInteger_of_lt (by omega)]
      exact readHead_of_spelled hmarker s
  | @wide marker word marked value =>
      have hmarker : (Marker.uint word.length).Spelled marker := marked
      rw [List.cons_append, readHead_of_spelled hmarker, readAfter, readWord_append, value,
        ← ofUnsigned_eq_ofInteger]
      rfl

theorem readHead_str {contents header : List UInt8}
    (h : Announced .str contents.length header) (s : List UInt8) :
    readHead (header ++ contents ++ s) = .ok (.leaf (ofStr contents), s) := by
  cases h with
  | @small marker _ _ range value bound =>
      cases range
      have hmarker : (Marker.smallStr contents.length).Spelled marker := ⟨value, bound⟩
      rw [List.append_assoc, List.singleton_append, readHead_of_spelled hmarker, readAfter,
        readContents_append]
      rfl
  | @wide marker word marked value =>
      have hmarker : (Marker.str word.length).Spelled marker := marked
      rw [List.append_assoc, List.cons_append, readHead_of_spelled hmarker, readAfter,
        readWord_append, value]
      change (readContents contents.length (contents ++ s) >>= _) = _
      rw [readContents_append]
      rfl

theorem readHead_bin {contents header : List UInt8}
    (h : Announced .bin contents.length header) (s : List UInt8) :
    readHead (header ++ contents ++ s) = .ok (.leaf (.bytes contents), s) := by
  cases h with
  | small range => cases range
  | @wide marker word marked value =>
      have hmarker : (Marker.bin word.length).Spelled marker := marked
      rw [List.append_assoc, List.cons_append, readHead_of_spelled hmarker, readAfter,
        readWord_append, value]
      change (readContents contents.length (contents ++ s) >>= _) = _
      rw [readContents_append]
      rfl

theorem width_of_mem_signedMarkers {width : Nat} (h : width ∈ signedMarkers.map Prod.snd) :
    width = 1 ∨ width = 2 ∨ width = 4 ∨ width = 8 := by
  simpa [signedMarkers] using h

/-- The two's complement form of an integer in range is read as that integer. -/
theorem signedWord_eq {width word : Nat} {i : Int} (hwidth : width ∈ signedMarkers.map Prod.snd)
    (lower : -2 ^ (8 * width - 1) ≤ i) (upper : i < 2 ^ (8 * width - 1))
    (value : (word : Int) = i % 2 ^ (8 * width)) : signedWord width word = i := by
  unfold signedWord
  rcases width_of_mem_signedMarkers hwidth with rfl | rfl | rfl | rfl <;> norm_num at * <;>
    split <;> omega

theorem two_pow_le_of_mem_signedMarkers {width : Nat} (h : width ∈ signedMarkers.map Prod.snd) :
    (2 : Int) ^ (8 * width - 1) ≤ 2 ^ 63 := by
  rcases width_of_mem_signedMarkers h with rfl | rfl | rfl | rfl <;> decide

theorem readHead_leaf {t : Tree} {v : Value} {encoding : List UInt8} (h : Written t encoding)
    (hleaf : t.leaf? = some v) (s : List UInt8) : readHead (encoding ++ s) = .ok (.leaf v, s) := by
  cases h with
  | nil =>
      cases hleaf
      have hmarker : Marker.nil.Spelled 0xc0 := rfl
      exact readHead_of_spelled hmarker s
  | false =>
      cases hleaf
      have hmarker : (Marker.bool false).Spelled 0xc2 := rfl
      exact readHead_of_spelled hmarker s
  | true =>
      cases hleaf
      have hmarker : (Marker.bool true).Spelled 0xc3 := rfl
      exact readHead_of_spelled hmarker s
  | unsigned announced =>
      obtain rfl := Option.some.inj hleaf
      exact readHead_unsigned announced s
  | @negative i marker lower upper value =>
      obtain rfl := Option.some.inj hleaf
      have hmarker : (Marker.smallInt i).Spelled marker := by
        rw [Marker.Spelled, if_neg (by omega)]
        omega
      rw [ofInteger_of_lt (by omega)]
      exact readHead_of_spelled hmarker s
  | @signed i marker word marked lower upper value =>
      obtain rfl := Option.some.inj hleaf
      have hmarker : (Marker.int word.length).Spelled marker := marked
      have hwidth : word.length ∈ signedMarkers.map Prod.snd := List.mem_map_of_mem marked
      have hbound := two_pow_le_of_mem_signedMarkers hwidth
      rw [List.cons_append, readHead_of_spelled hmarker, readAfter, readWord_append,
        ofInteger_of_lt (by omega)]
      change Except.ok (Head.leaf (.int (Int64.ofInt (signedWord _ _))), s) = _
      rw [signedWord_eq hwidth lower upper value]
  | @float32 word width =>
      cases hleaf
      have hmarker : Marker.float32.Spelled 0xca := rfl
      rw [List.cons_append, readHead_of_spelled hmarker, readAfter, ← width, readWord_append]
      rfl
  | @float64 word width =>
      cases hleaf
      have hmarker : Marker.float64.Spelled 0xcb := rfl
      rw [List.cons_append, readHead_of_spelled hmarker, readAfter, ← width, readWord_append]
      rfl
  | str announced => cases hleaf; exact readHead_str announced s
  | bin announced => cases hleaf; exact readHead_bin announced s
  | fixedExtension => cases hleaf
  | extension => cases hleaf
  | array => cases hleaf
  | map => cases hleaf

/-! ## Nothing is written in no bytes -/

theorem Announced.length_pos {heading : Heading} {n : Nat} {header : List UInt8}
    (h : Announced heading n header) : 0 < header.length := by
  cases h with
  | small => exact Nat.zero_lt_succ _
  | wide => exact Nat.zero_lt_succ _

theorem Written.length_pos {t : Tree} {encoding : List UInt8} (h : Written t encoding) :
    0 < encoding.length := by
  cases h with
  | unsigned announced => exact announced.length_pos
  | str announced | bin announced | extension announced | array announced | map announced =>
      have hheader := announced.length_pos
      rw [List.length_append]
      omega
  | _ => exact Nat.zero_lt_succ _

/-! ## Finding what was read in the grammar -/

/-- The bytes are what the grammar has for a head. -/
inductive Opening : Head → List UInt8 → Prop
  | leaf {t : Tree} {v : Value} {encoding : List UInt8} (written : Written t encoding)
      (means : Means t v) (flat : v.nesting = 0) : Opening (.leaf v) encoding
  | array {count : Nat} {header : List UInt8} (announced : Announced .array count header) :
      Opening (.array count) header
  | map {count : Nat} {header : List UInt8} (announced : Announced .map count header) :
      Opening (.map count) header
  | extension {encoding : List UInt8} : Opening .extension encoding

theorem signedWord_bounds {width word : Nat} (hwidth : width ∈ signedMarkers.map Prod.snd)
    (hword : word < 2 ^ (8 * width)) :
    -2 ^ (8 * width - 1) ≤ signedWord width word ∧ signedWord width word < 2 ^ (8 * width - 1) ∧
      (word : Int) = signedWord width word % 2 ^ (8 * width) := by
  unfold signedWord
  rcases width_of_mem_signedMarkers hwidth with rfl | rfl | rfl | rfl <;> norm_num at * <;>
    split <;> omega

theorem nesting_ofStr (contents : List UInt8) : (ofStr contents).nesting = 0 := by
  unfold ofStr
  split <;> rfl

theorem nesting_ofInteger (i : Int) : (ofInteger i).nesting = 0 := by
  unfold ofInteger
  split <;> rfl

theorem opening_integer {i : Int} {encoding : List UInt8} (h : Written (.integer i) encoding)
    (lower : -2 ^ 63 ≤ i) (upper : i < 2 ^ 64) : Opening (.leaf (ofInteger i)) encoding :=
  .leaf h (means_integer lower upper) (nesting_ofInteger i)

theorem opening_smallInt {b : UInt8} {i : Int} (h : (Marker.smallInt i).Spelled b) :
    Opening (.leaf (.int (Int64.ofInt i))) [b] := by
  have hbyte : b.toNat < 256 := b.toNat_lt
  rw [Marker.Spelled] at h
  split at h
  · next hsmall =>
    subst h
    rw [← ofInteger_of_lt (by omega)]
    exact opening_integer (.unsigned (.small rfl (Nat.zero_add _).symm hsmall))
      (by omega) (by omega)
  · obtain ⟨hlower, rfl⟩ := h
    rw [← ofInteger_of_lt (by omega)]
    exact opening_integer (.negative (by omega) (by omega) (by omega)) (by omega) (by omega)

theorem opening_uint {b : UInt8} {word : List UInt8} {number : Nat}
    (h : (Marker.uint word.length).Spelled b) (hnumber : Wire.ofBigEndian word = number) :
    Opening (.leaf (ofUnsigned number)) (b :: word) := by
  have hwidth : word.length ≤ 8 := by
    have htable : ∀ p ∈ Heading.unsigned.wide, p.2 ≤ 8 := by decide
    exact htable _ h
  have hupper : number < 2 ^ 64 := calc
    number < 2 ^ (8 * word.length) := hnumber ▸ Wire.ofBigEndian_lt word
    _ ≤ 2 ^ 64 := Nat.pow_le_pow_right (by decide) (by omega)
  rw [ofUnsigned_eq_ofInteger]
  exact opening_integer (.unsigned (.wide h hnumber)) (by omega) (by omega)

theorem opening_int {b : UInt8} {word : List UInt8} (h : (Marker.int word.length).Spelled b) :
    Opening (.leaf (.int (Int64.ofInt (signedWord word.length (Wire.ofBigEndian word)))))
      (b :: word) := by
  have hwidth : word.length ∈ signedMarkers.map Prod.snd := List.mem_map_of_mem h
  have hbound := two_pow_le_of_mem_signedMarkers hwidth
  obtain ⟨lower, upper, value⟩ := signedWord_bounds hwidth (Wire.ofBigEndian_lt word)
  rw [← ofInteger_of_lt (by omega)]
  exact opening_integer (.signed h lower upper value) (by omega) (by omega)

theorem opening_of_readHead {p s : List UInt8} {head : Head} (h : readHead p = .ok (head, s)) :
    ∃ e, p = e ++ s ∧ Opening head e := by
  cases p with
  | nil => cases h
  | cons b rest =>
      have hspelled := Marker.spelled_ofByte b
      rw [readHead] at h
      generalize Marker.ofByte b = m at h hspelled
      cases m with
      | smallInt i =>
          cases h
          exact ⟨[b], rfl, opening_smallInt hspelled⟩
      | smallMap count =>
          cases h
          exact ⟨[b], rfl, .map (.small rfl hspelled.1 hspelled.2)⟩
      | smallArray count =>
          cases h
          exact ⟨[b], rfl, .array (.small rfl hspelled.1 hspelled.2)⟩
      | smallStr length =>
          obtain ⟨⟨contents, s'⟩, hcontents, h⟩ := bind_eq_ok_iff.mp h
          cases h
          obtain ⟨rfl, rfl⟩ := readContents_eq_ok_iff.mp hcontents
          exact ⟨[b] ++ contents, rfl,
            .leaf (.str (.small rfl hspelled.1 hspelled.2)) (means_str _)
              (nesting_ofStr _)⟩
      | nil =>
          cases h
          cases hspelled
          exact ⟨[0xc0], rfl, .leaf .nil .nil rfl⟩
      | reserved => cases h
      | bool truth =>
          cases h
          cases truth <;> cases hspelled
          · exact ⟨[0xc2], rfl, .leaf .false .bool rfl⟩
          · exact ⟨[0xc3], rfl, .leaf .true .bool rfl⟩
      | bin width =>
          obtain ⟨⟨length, s₁⟩, hword, h⟩ := bind_eq_ok_iff.mp h
          obtain ⟨⟨contents, s₂⟩, hcontents, h⟩ := bind_eq_ok_iff.mp h
          cases h
          obtain ⟨word, rfl, rfl, hnumber⟩ := readWord_eq_ok_iff.mp hword
          obtain ⟨rfl, rfl⟩ := readContents_eq_ok_iff.mp hcontents
          exact ⟨(b :: word) ++ contents, by simp,
            .leaf (.bin (.wide hspelled hnumber)) .bytes rfl⟩
      | extension width =>
          obtain ⟨⟨length, s₁⟩, hword, h⟩ := bind_eq_ok_iff.mp h
          cases h
          obtain ⟨word, rfl, rfl, hnumber⟩ := readWord_eq_ok_iff.mp hword
          exact ⟨b :: word, rfl, .extension⟩
      | float32 =>
          obtain ⟨⟨number, s₁⟩, hword, h⟩ := bind_eq_ok_iff.mp h
          cases h
          obtain ⟨word, rfl, hwidth, rfl⟩ := readWord_eq_ok_iff.mp hword
          cases hspelled
          exact ⟨0xca :: word, rfl,
            .leaf (.float32 hwidth) (.float32 (Binary64.widens_ofBinary32 _)) rfl⟩
      | float64 =>
          obtain ⟨⟨number, s₁⟩, hword, h⟩ := bind_eq_ok_iff.mp h
          cases h
          obtain ⟨word, rfl, hwidth, rfl⟩ := readWord_eq_ok_iff.mp hword
          cases hspelled
          exact ⟨0xcb :: word, rfl, .leaf (.float64 hwidth) .float64 rfl⟩
      | uint width =>
          obtain ⟨⟨number, s₁⟩, hword, h⟩ := bind_eq_ok_iff.mp h
          cases h
          obtain ⟨word, rfl, rfl, hnumber⟩ := readWord_eq_ok_iff.mp hword
          exact ⟨b :: word, rfl, opening_uint hspelled hnumber⟩
      | int width =>
          obtain ⟨⟨number, s₁⟩, hword, h⟩ := bind_eq_ok_iff.mp h
          cases h
          obtain ⟨word, rfl, rfl, rfl⟩ := readWord_eq_ok_iff.mp hword
          exact ⟨b :: word, rfl, opening_int hspelled⟩
      | str width =>
          obtain ⟨⟨length, s₁⟩, hword, h⟩ := bind_eq_ok_iff.mp h
          obtain ⟨⟨contents, s₂⟩, hcontents, h⟩ := bind_eq_ok_iff.mp h
          cases h
          obtain ⟨word, rfl, rfl, hnumber⟩ := readWord_eq_ok_iff.mp hword
          obtain ⟨rfl, rfl⟩ := readContents_eq_ok_iff.mp hcontents
          exact ⟨(b :: word) ++ contents, by simp,
            .leaf (.str (.wide hspelled hnumber)) (means_str _) (nesting_ofStr _)⟩
      | array width =>
          obtain ⟨⟨count, s₁⟩, hword, h⟩ := bind_eq_ok_iff.mp h
          cases h
          obtain ⟨word, rfl, rfl, hnumber⟩ := readWord_eq_ok_iff.mp hword
          exact ⟨b :: word, rfl, .array (.wide hspelled hnumber)⟩
      | map width =>
          obtain ⟨⟨count, s₁⟩, hword, h⟩ := bind_eq_ok_iff.mp h
          cases h
          obtain ⟨word, rfl, rfl, hnumber⟩ := readWord_eq_ok_iff.mp hword
          exact ⟨b :: word, rfl, .map (.wide hspelled hnumber)⟩

end LogRelay.MessagePack
