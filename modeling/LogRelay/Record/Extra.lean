import LogRelay.Value.Basic

/-!
# Extra fields

The fields of a record that are not well known: each name once, in increasing order of the names.
Putting a name that is there already replaces its value.
-/

namespace LogRelay

/-- Fields by name, in increasing order of the names. -/
structure Extra where
  /-- Names and values. -/
  entries : List (String × Value)
  /-- The names increase, so each occurs once. -/
  sorted : entries.Pairwise fun a b => a.1 < b.1

namespace Extra

/-- No fields. -/
def empty : Extra := ⟨[], .nil⟩

instance : Inhabited Extra := ⟨empty⟩

/-- Puts a value under a name into an ordered list. -/
def put (key : String) (value : Value) : List (String × Value) → List (String × Value)
  | [] => [(key, value)]
  | (k, v) :: rest =>
    if key < k then (key, value) :: (k, v) :: rest
    else if key = k then (key, value) :: rest
    else (k, v) :: put key value rest

theorem mem_put {key : String} {value : Value} {entries : List (String × Value)}
    {entry : String × Value} (h : entry ∈ put key value entries) :
    entry = (key, value) ∨ entry ∈ entries := by
  induction entries with
  | nil => exact .inl (List.mem_singleton.mp h)
  | cons head rest ih =>
    unfold put at h
    split at h
    · exact List.mem_cons.mp h
    · split at h
      · exact (List.mem_cons.mp h).imp_right (List.mem_cons_of_mem head)
      · rcases List.mem_cons.mp h with h | h
        · exact .inr (h ▸ List.mem_cons_self)
        · exact (ih h).imp_right (List.mem_cons_of_mem head)

theorem pairwise_put {key : String} {value : Value} {entries : List (String × Value)}
    (h : entries.Pairwise fun a b => a.1 < b.1) :
    (put key value entries).Pairwise fun a b => a.1 < b.1 := by
  induction entries with
  | nil => exact List.pairwise_singleton ..
  | cons head rest ih =>
    have hrest := List.pairwise_cons.mp h
    unfold put
    split
    · next hlt =>
      refine List.pairwise_cons.mpr ⟨fun entry hmem => ?_, h⟩
      rcases List.mem_cons.mp hmem with rfl | hmem
      · exact hlt
      · exact String.lt_trans hlt (hrest.1 entry hmem)
    · next hnot =>
      split
      · next heq =>
        subst heq
        exact List.pairwise_cons.mpr ⟨hrest.1, hrest.2⟩
      · next hne =>
        refine List.pairwise_cons.mpr ⟨fun entry hmem => ?_, ih hrest.2⟩
        rcases mem_put hmem with rfl | hmem
        · exact String.not_le.mp fun hle =>
            hne (String.le_antisymm hle (String.not_lt.mp hnot))
        · exact hrest.1 entry hmem

/-- The fields after a value was put under a name. -/
def insert (extra : Extra) (key : String) (value : Value) : Extra :=
  ⟨put key value extra.entries, pairwise_put extra.sorted⟩

/-- The value under a name. -/
def get? (extra : Extra) (key : String) : Option Value :=
  extra.entries.lookup key

end Extra

end LogRelay
