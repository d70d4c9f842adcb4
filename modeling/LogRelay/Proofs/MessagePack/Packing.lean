import LogRelay.MessagePack.Writer
import LogRelay.Proofs.MessagePack.Acceptance
import Mathlib.Algebra.Order.Ring.Int

/-!
# What the writer writes

The writer writes every value in a form of the grammar, so the reader gets back the value with its
integers in signed form. Which families and widths the writer chooses is of no concern to the rest.
-/

namespace LogRelay.MessagePack

open Wire (bigEndian)

/-! ## Headers -/

theorem Announced.of_small {heading : Heading} {first count n : Nat}
    (range : heading.small = some (first, count)) (size : first + count ≤ 256) (bound : n < count) :
    Announced heading n (bigEndian 1 (first + n)) := by
  have hbyte : (UInt8.ofNat (first + n)).toNat = first + n := by
    rw [UInt8.toNat_ofNat']
    omega
  rw [bigEndian, Nat.pow_zero, Nat.div_one]
  exact .small range hbyte bound

theorem Announced.of_wide {heading : Heading} {marker : UInt8} {width n : Nat}
    (marked : (marker, width) ∈ heading.wide) (bound : n < 256 ^ width) :
    Announced heading n (marker :: bigEndian width n) := by
  refine .wide ?_ ?_
  · rwa [Wire.length_bigEndian]
  · rw [Wire.ofBigEndian_bigEndian, Nat.mod_eq_of_lt bound]

theorem announced_packNat {n : Nat} (h : n < 2 ^ 64) : Announced .unsigned n (packNat n) := by
  unfold packNat
  split
  · next hsmall =>
    have hzero : Announced .unsigned n (bigEndian 1 (0 + n)) :=
      .of_small rfl (by decide) hsmall
    rwa [Nat.zero_add] at hzero
  split
  · exact .of_wide (by decide) (by omega)
  split
  · exact .of_wide (by decide) (by omega)
  split
  · exact .of_wide (by decide) (by omega)
  · exact .of_wide (by decide) (by omega)

theorem announced_strHeader {n : Nat} (h : n < 2 ^ 32) : Announced .str n (strHeader n) := by
  unfold strHeader
  split
  · exact .of_small rfl (by decide) (by omega)
  split
  · exact .of_wide (by decide) (by omega)
  split
  · exact .of_wide (by decide) (by omega)
  · exact .of_wide (by decide) (by omega)

theorem announced_binHeader {n : Nat} (h : n < 2 ^ 32) : Announced .bin n (binHeader n) := by
  unfold binHeader
  split
  · exact .of_wide (by decide) (by omega)
  split
  · exact .of_wide (by decide) (by omega)
  · exact .of_wide (by decide) (by omega)

theorem announced_arrayHeader {n : Nat} (h : n < 2 ^ 32) : Announced .array n (arrayHeader n) := by
  unfold arrayHeader
  split
  · exact .of_small rfl (by decide) (by omega)
  split
  · exact .of_wide (by decide) (by omega)
  · exact .of_wide (by decide) (by omega)

theorem announced_mapHeader {n : Nat} (h : n < 2 ^ 32) : Announced .map n (mapHeader n) := by
  unfold mapHeader
  split
  · exact .of_small rfl (by decide) (by omega)
  split
  · exact .of_wide (by decide) (by omega)
  · exact .of_wide (by decide) (by omega)

/-! ## Integers -/

theorem written_negative {i : Int} {marker : UInt8} {width : Nat}
    (marked : (marker, width) ∈ signedMarkers) (lower : -2 ^ (8 * width - 1) ≤ i) (upper : i < 0) :
    Written (.integer i) (marker :: bigEndian width (2 ^ (8 * width) + i).toNat) := by
  have hwidth : width ∈ signedMarkers.map Prod.snd := List.mem_map_of_mem marked
  have hword : (Wire.ofBigEndian (bigEndian width (2 ^ (8 * width) + i).toNat) : Int) =
      i % 2 ^ (8 * width) := by
    rw [Wire.ofBigEndian_bigEndian]
    rcases width_of_mem_signedMarkers hwidth with rfl | rfl | rfl | rfl <;> norm_num at * <;> omega
  refine .signed ?_ ?_ ?_ ?_
  · rwa [Wire.length_bigEndian]
  · rwa [Wire.length_bigEndian]
  · rw [Wire.length_bigEndian]
    exact upper.trans (pow_pos (by decide) _)
  · rwa [Wire.length_bigEndian]

theorem written_packNegative {i : Int} (lower : -2 ^ 63 ≤ i) (upper : i < 0) :
    Written (.integer i) (packNegative i) := by
  unfold packNegative
  split
  · next hsmall =>
    rw [bigEndian, Nat.pow_zero, Nat.div_one]
    refine .negative hsmall upper ?_
    rw [UInt8.toNat_ofNat']
    omega
  split
  · next hlower => exact written_negative (by decide) hlower upper
  split
  · next hlower => exact written_negative (by decide) hlower upper
  split
  · next hlower => exact written_negative (by decide) hlower upper
  · exact written_negative (by decide) lower upper

theorem written_packInt {i : Int} (lower : -2 ^ 63 ≤ i) (upper : i < 2 ^ 63) :
    Written (.integer i) (packInt i) := by
  unfold packInt
  split
  · next hnonneg =>
    have hwritten := Written.unsigned (announced_packNat (n := i.toNat) (by omega))
    rwa [Int.toNat_of_nonneg hnonneg] at hwritten
  · next hneg => exact written_packNegative lower (by omega)

theorem signed_uint (u : UInt64) : (Value.uint u).signed = ofInteger u.toNat := by
  rw [Value.signed, ← ofUnsigned_eq_ofInteger, ofUnsigned, UInt64.ofNat_toNat]

/-! ## Values -/

theorem encodes_int (i : Int64) : Encodes (.int i) (packInt i.toInt) :=
  ⟨.integer i.toInt, written_packInt i.le_toInt i.toInt_lt, .int⟩

theorem encodes_uint (u : UInt64) : Encodes (Value.uint u).signed (packNat u.toNat) := by
  rw [signed_uint]
  exact ⟨.integer u.toNat, .unsigned (announced_packNat u.toNat_lt),
    means_integer (by omega) (by have := u.toNat_lt; omega)⟩

theorem encodes_float (x : Binary64) : Encodes (.float x) (0xcb :: bigEndian 8 x.bits.toNat) := by
  have hword : UInt64.ofNat (Wire.ofBigEndian (bigEndian 8 x.bits.toNat)) = x.bits := by
    have hbits : x.bits.toNat < 256 ^ 8 := Nat.lt_of_lt_of_eq x.bits.toNat_lt (by norm_num)
    rw [Wire.ofBigEndian_bigEndian, Nat.mod_eq_of_lt hbits, UInt64.ofNat_toNat]
  have hwritten := Written.float64 (Wire.length_bigEndian 8 x.bits.toNat)
  rw [hword] at hwritten
  exact ⟨.float64 x, hwritten, .float64⟩

theorem encodes_text {s : String} (h : (Text.utf8 s).length < 2 ^ 32) :
    Encodes (.text s) (packText s) :=
  ⟨.str (Text.utf8 s), .str (announced_strHeader h), .text⟩

theorem encodes_bytes {bs : List UInt8} (h : bs.length < 2 ^ 32) :
    Encodes (.bytes bs) (binHeader bs.length ++ bs) :=
  ⟨.bin bs, .bin (announced_binHeader h), .bytes⟩

theorem sequence_packItems {items : List Value}
    (h : ∀ v ∈ items, Encodes v.signed (pack v)) :
    Sequence Encodes (items.map Value.signed) (packItems items) := by
  induction items with
  | nil => exact .nil
  | cons v rest ih =>
      obtain ⟨hhead, htail⟩ := List.forall_mem_cons.mp h
      exact .cons hhead (ih htail)

theorem sequence_packEntries {entries : List (Value × Value)}
    (h : ∀ entry ∈ entries, Encodes entry.1.signed (pack entry.1) ∧
      Encodes entry.2.signed (pack entry.2)) :
    Sequence (Paired Encodes) (entries.map (Prod.map Value.signed Value.signed))
      (packEntries entries) := by
  induction entries with
  | nil => exact .nil
  | cons entry rest ih =>
      obtain ⟨⟨hkey, hvalue⟩, htail⟩ := List.forall_mem_cons.mp h
      rw [packEntries, ← List.append_assoc]
      exact .cons ⟨hkey, hvalue⟩ (ih htail)

/-- What the writer writes is an encoding of the value with its integers in signed form. -/
theorem encodes_pack {v : Value} (h : v.Fits) : Encodes v.signed (pack v) := by
  induction v using Value.structural with
  | nil => exact ⟨.nil, .nil, .nil⟩
  | bool b =>
      cases b with
      | false => exact ⟨.bool false, .false, .bool⟩
      | true => exact ⟨.bool true, .true, .bool⟩
  | int i => exact encodes_int i
  | uint u => exact encodes_uint u
  | float x => exact encodes_float x
  | text s => exact encodes_text h
  | bytes bs => exact encodes_bytes h
  | array items ih =>
      obtain ⟨hcount, hitems⟩ := h
      have hall := Value.fitsItems_iff.mp hitems
      rw [Value.signed, Value.signedItems_eq_map, pack]
      refine .array ?_ (sequence_packItems fun v hv => ih v hv (hall v hv))
      rw [List.length_map]
      exact announced_arrayHeader hcount
  | map entries ih =>
      obtain ⟨hcount, hentries⟩ := h
      have hall := Value.fitsEntries_iff.mp hentries
      rw [Value.signed, Value.signedEntries_eq_map, pack]
      refine .map ?_ (sequence_packEntries fun entry hmem =>
        ⟨(ih entry hmem).1 (hall entry hmem).1, (ih entry hmem).2 (hall entry hmem).2⟩)
      rw [List.length_map]
      exact announced_mapHeader hcount

theorem readNested_pack {v : Value} (h : v.Fits) {depth : Nat} (hnesting : v.nesting ≤ depth)
    (s : List UInt8) : readNested depth (pack v ++ s) = .ok (v.signed, s) := by
  obtain ⟨t, hwritten, hmeans⟩ := encodes_pack h
  have hload : t.load depth = .ok v.signed :=
    (Tree.guarded_load hmeans).ok ((Value.nesting_signed v).trans_le hnesting)
  rw [reads_readNested depth t _ s hwritten, hload]
  rfl

theorem read_pack {v : Value} (h : v.Fits) (hnesting : v.nesting ≤ nestingLimit)
    (s : List UInt8) : read (pack v ++ s) = .ok (v.signed, s) :=
  readNested_pack h hnesting s

theorem read_pack_of_too_deep {v : Value} (h : v.Fits) (hnesting : nestingLimit < v.nesting)
    (s : List UInt8) : read (pack v ++ s) = .error .tooDeep :=
  read_of_too_deep (encodes_pack h) ((Value.nesting_signed v).symm ▸ hnesting) s

/-! ## Values that are written alike -/

theorem packItems_eq_flatMap (items : List Value) : packItems items = items.flatMap pack := by
  induction items with
  | nil => rfl
  | cons v rest ih => rw [packItems, ih, List.flatMap_cons]

theorem packEntries_eq_flatMap (entries : List (Value × Value)) :
    packEntries entries = entries.flatMap fun entry => pack entry.1 ++ pack entry.2 := by
  induction entries with
  | nil => rfl
  | cons entry rest ih => rw [packEntries, ih, List.flatMap_cons, List.append_assoc]

theorem packInt_of_signed {u : UInt64} (h : u.toNat < 2 ^ 63) :
    packInt (Int64.ofNat u.toNat).toInt = packNat u.toNat := by
  rw [Int64.toInt_ofNat_of_lt h, packInt, if_pos (Int.natCast_nonneg _), Int.toNat_natCast]

/-- Whether an integer is signed does not show when it is written. -/
theorem pack_signed (v : Value) : pack v.signed = pack v := by
  induction v using Value.structural with
  | uint u =>
      rw [Value.signed]
      split
      · next hsmall =>
        rw [pack, pack]
        exact packInt_of_signed hsmall
      · rfl
  | array items ih =>
      rw [Value.signed, Value.signedItems_eq_map, pack, pack, List.length_map,
        packItems_eq_flatMap, packItems_eq_flatMap, List.flatMap_map, List.flatMap_congr ih]
  | map entries ih =>
      have hentries : ∀ entry ∈ entries,
          pack entry.1.signed ++ pack entry.2.signed = pack entry.1 ++ pack entry.2 := by
        intro entry hentry
        rw [(ih entry hentry).1, (ih entry hentry).2]
      rw [Value.signed, Value.signedEntries_eq_map, pack, pack, List.length_map,
        packEntries_eq_flatMap, packEntries_eq_flatMap, List.flatMap_map]
      exact congrArg _ (List.flatMap_congr hentries)
  | _ => rfl

/-- What is written tells where it ends, and the value up to the signs of its integers. -/
theorem pack_append_inj {v w : Value} (hv : v.Fits) (hw : w.Fits) {s t : List UInt8}
    (h : pack v ++ s = pack w ++ t) : v.signed = w.signed ∧ s = t := by
  have hleft := readNested_pack hv (Nat.le_max_left v.nesting w.nesting) s
  have hright := readNested_pack hw (Nat.le_max_right v.nesting w.nesting) t
  rw [h] at hleft
  exact Prod.mk.inj (Except.ok.inj (hleft.symm.trans hright))

/-- A value that was written is read back with its integers signed if they fit and all else as it
was, whatever follows. So two values are written alike exactly if they are the same but for that. -/
theorem pack_round_trip :
    (∀ (v : Value) (s : List UInt8), v.Fits → v.nesting ≤ 1023 →
        read (pack v ++ s) = .ok (v.signed, s)) ∧
      ∀ v w : Value, v.Fits → w.Fits → (pack v = pack w ↔ v.signed = w.signed) := by
  refine ⟨fun v s hfits hnesting => read_pack hfits hnesting s, fun v w hv hw => ⟨fun h => ?_, ?_⟩⟩
  · refine (pack_append_inj hv hw (s := []) (t := []) ?_).1
    rw [h]
  · intro h
    rw [← pack_signed v, ← pack_signed w, h]

/-- A key that is a container, written twice with integers of either kind in it. -/
theorem pack_round_trip_keys :
    read (pack (.map [(.array [.uint 7], .bytes [0x78]), (.array [.int 7], .text "x")]) ++ [0xc0]) =
        .ok (.map [(.array [.int 7], .bytes [0x78]), (.array [.int 7], .text "x")], [0xc0]) ∧
      pack (.map [(.array [.uint 7], .nil)]) = pack (.map [(.array [.int 7], .nil)]) :=
  ⟨pack_round_trip.1 _ _ (by decide) (by decide),
    (pack_round_trip.2 _ _ (by decide) (by decide)).mpr rfl⟩

end LogRelay.MessagePack
