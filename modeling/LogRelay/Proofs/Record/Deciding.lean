import LogRelay.Proofs.Record.RoundTrip
import Mathlib.Data.List.Induction
import Mathlib.Logic.Function.Basic

/-!
# Which entries decide a record

A list of named values may name a field more than once. The last entry of a name decides, and for
the name of the logger the last one that is not nil. A record is a function of the deciding values
alone: what stood under the same name before does not matter, and neither does the order of entries
with different names.
-/

namespace LogRelay

theorem Field.key_ne_of_ofKey?_eq_none {key : String} (h : ofKey? key = none) (field : Field) :
    field.key ≠ key := by
  rintro rfl
  cases h.symm.trans (ofKey?_key field)

/-! ## Extra fields by name -/

namespace Extra

theorem lookup_cons {key other : String} {value : Value} {entries : List (String × Value)} :
    ((key, value) :: entries).lookup other =
      if other = key then some value else entries.lookup other := by
  rw [List.lookup_cons]
  by_cases h : other = key
  · rw [if_pos h, beq_iff_eq.mpr h]
  · rw [if_neg h, beq_eq_false_iff_ne.mpr h]

theorem lookup_put {key other : String} {value : Value} {entries : List (String × Value)} :
    (put key value entries).lookup other =
      if other = key then some value else entries.lookup other := by
  induction entries with
  | nil => rw [put, lookup_cons]
  | cons entry rest ih =>
      obtain ⟨k, v⟩ := entry
      unfold put
      split
      · rw [lookup_cons]
      · split
        · next heq =>
          rw [lookup_cons, lookup_cons, ← heq]
          by_cases h : other = key
          · rw [if_pos h, if_pos h]
          · rw [if_neg h, if_neg h, if_neg h]
        · next hne =>
          rw [lookup_cons, lookup_cons, ih]
          by_cases h : other = k
          · rw [if_pos h, if_pos h, if_neg fun heq => hne (heq.symm.trans h)]
          · rw [if_neg h, if_neg h]

theorem get?_insert (extra : Extra) (key : String) (value : Value) (other : String) :
    (extra.insert key value).get? other = if other = key then some value else extra.get? other :=
  lookup_put

theorem lookup_eq_some_iff_mem {key : String} {value : Value} {entries : List (String × Value)}
    (hkeys : (entries.map Prod.fst).Nodup) :
    entries.lookup key = some value ↔ (key, value) ∈ entries := by
  induction entries with
  | nil => simp
  | cons entry rest ih =>
      obtain ⟨hfresh, hrest⟩ := List.nodup_cons.mp hkeys
      rw [lookup_cons, List.mem_cons, ← ih hrest, Prod.ext_iff]
      by_cases h : key = entry.1
      · have hother : rest.lookup key ≠ some value := fun hfound =>
          hfresh (List.mem_map.mpr ⟨(key, value), (ih hrest).mp hfound, h⟩)
        simp [← h, hother, eq_comm]
      · simp [h]

/-- Extra fields are what stands under each name. -/
theorem ext_get? {a b : Extra} (h : ∀ key, a.get? key = b.get? key) : a = b := by
  refine ext_entries (List.Perm.eq_of_pairwise ?_ a.sorted b.sorted ?_)
  · intro x y _ _ hxy hyx
    exact absurd hyx (String.lt_asymm hxy)
  · refine (List.perm_ext_iff_of_nodup a.nodup_entries b.nodup_entries).mpr fun entry => ?_
    rw [← lookup_eq_some_iff_mem a.nodup_keys, ← lookup_eq_some_iff_mem b.nodup_keys]
    exact iff_of_eq (congrArg (· = some entry.2) (h entry.1))

end Extra

namespace LogRecord

/-! ## Deciding values -/

/-- Whether an entry counts for a key: it has that key, and for the name of the logger it is not
nil. -/
def countsFor (key : String) (entry : String × Value) : Bool :=
  entry.1 = key && (key != Field.name.key || entry.2.kind != .nil)

theorem countsFor_eq_false {key : String} {entry : String × Value} (h : entry.1 ≠ key) :
    countsFor key entry = false := by
  rw [countsFor, decide_eq_false h, Bool.false_and]

theorem countsFor_self_of_ofKey?_eq_none {entry : String × Value}
    (h : Field.ofKey? entry.1 = none) : countsFor entry.1 entry = true := by
  have hname : entry.1 ≠ Field.name.key := (Field.key_ne_of_ofKey?_eq_none h .name).symm
  rw [countsFor, decide_eq_true rfl, bne_iff_ne.mpr hname]
  rfl

/-- The value that decides what stands under a key: that of the last entry that counts for it. -/
def deciding? (entries : List (String × Value)) (key : String) : Option Value :=
  (entries.filter (countsFor key)).getLast?.map Prod.snd

theorem deciding?_append_singleton (entries : List (String × Value)) (entry : String × Value)
    (key : String) :
    deciding? (entries ++ [entry]) key =
      if countsFor key entry then some entry.2 else deciding? entries key := by
  rw [deciding?, List.filter_append, List.filter_singleton]
  by_cases h : countsFor key entry = true
  · rw [if_pos h, h, cond_true, List.getLast?_concat]
    rfl
  · rw [if_neg h, Bool.eq_false_of_not_eq_true h, cond_false, List.append_nil, deciding?]

/-- Among entries with different keys at most one counts for each key, wherever it stands. -/
theorem deciding?_eq_of_perm {entries others : List (String × Value)} (h : entries.Perm others)
    (hkeys : (entries.map Prod.fst).Nodup) : deciding? entries = deciding? others := by
  have halone {list : List (String × Value)} (hlist : (list.map Prod.fst).Nodup) (key : String) :
      (list.filter (countsFor key)).Pairwise fun _ _ => False := by
    refine ((List.pairwise_map.mp hlist).filter _).imp_of_mem fun hx hy hne => hne ?_
    have hx := (List.mem_filter.mp hx).2
    have hy := (List.mem_filter.mp hy).2
    simp only [countsFor, Bool.and_eq_true, decide_eq_true_eq] at hx hy
    exact hx.1.trans hy.1.symm
  have hothers : (others.map Prod.fst).Nodup := (h.map _).nodup_iff.mp hkeys
  funext key
  have hsame : entries.filter (countsFor key) = others.filter (countsFor key) :=
    (h.filter _).eq_of_pairwise (fun _ _ _ _ hfalse => hfalse.elim) (halone hkeys key)
      (halone hothers key)
  rw [deciding?, deciding?, hsame]

/-! ## The record of the deciding values -/

namespace Draft

/-- The draft in which every field has its deciding value. A nil value is no content, except that it
has a text as a template. -/
def ofDeciding (value : Field → Option Value) (extra : Extra) : Draft where
  record :=
    { name := ((value .name).bind Value.text?).getD rootLogger
      levelno := blank.levelno
      levelname := blank.levelname
      msg := (value .msg).elim "" Value.display
      args := (value .args).bind ofArgs
      pathname := (value .pathname).bind Value.text?
      filename := (value .filename).bind Value.text?
      module := (value .module).bind Value.text?
      funcName := (value .funcName).bind Value.text?
      lineno := (value .lineno).bind signed?
      created := (value .created).bind float?
      msecs := (value .msecs).bind float?
      excText := (value .excText).bind Value.text?
      stackInfo := (value .stackInfo).bind Value.text?
      thread := (value .thread).bind unsigned?
      threadName := (value .threadName).bind Value.text?
      process := (value .process).bind unsigned?
      processName := (value .processName).bind Value.text?
      message := (value .message).bind Value.text?
      extra }
  levelno := (value .levelno).bind signed?
  levelname := (value .levelname).bind Value.text?

/-- Setting a field makes the value the one that decides it, unless it is a nil name. -/
theorem set_ofDeciding {value : Field → Option Value} {extra : Extra} {field : Field} {v : Value}
    {d : Draft} (h : (ofDeciding value extra).set field v = .ok d) :
    d = ofDeciding (if countsFor field.key (field.key, v) then Function.update value field (some v)
      else value) extra := by
  cases field with
  | name =>
      obtain ⟨s, hs, rfl⟩ := map_eq_ok_iff.mp h
      obtain rfl := lift_eq_ok rfl hs
      cases v with
      | nil => rfl
      | text s => rfl
      | _ => cases hs
  | msg | args =>
      cases h
      rfl
  | levelno | lineno | created | msecs | thread | process =>
      obtain ⟨a, ha, rfl⟩ := map_eq_ok_iff.mp h
      obtain rfl := lift_eq_ok rfl ha
      rfl
  | _ =>
      obtain ⟨s, hs, rfl⟩ := map_eq_ok_iff.mp h
      obtain rfl := lift_eq_ok rfl hs
      rfl

/-- The draft has the deciding value under every name. -/
structure DecidedBy (d : Draft) (entries : List (String × Value)) : Prop where
  /-- Every well-known field has its deciding value. -/
  fields : d = ofDeciding (fun field => deciding? entries field.key) d.record.extra
  /-- Every other name has its deciding value as an extra field. -/
  extra : ∀ key, d.record.extra.get? key =
    if (Field.ofKey? key).isSome then none else deciding? entries key

theorem decidedBy_nil : DecidedBy {} [] where
  fields := rfl
  extra _ := (ite_self none).symm

theorem DecidedBy.set {d d' : Draft} {entries : List (String × Value)} {field : Field} {v : Value}
    (h : d.DecidedBy entries) (hset : d.set field v = .ok d') :
    d'.DecidedBy (entries ++ [(field.key, v)]) := by
  rw [h.fields] at hset
  have hd' := set_ofDeciding hset
  have hextra : d'.record.extra = d.record.extra := by
    rw [hd']
    rfl
  constructor
  · rw [hextra, hd']
    congr 1
    funext other
    rw [deciding?_append_singleton]
    by_cases hsame : other = field
    · subst hsame
      split
      · exact Function.update_self ..
      · rfl
    · have hother : countsFor other.key (field.key, v) = false :=
        countsFor_eq_false fun heq => hsame (Field.key_injective heq).symm
      rw [hother]
      split
      · exact Function.update_of_ne hsame ..
      · rfl
  · intro key
    rw [hextra, h.extra, deciding?_append_singleton]
    cases hkey : Field.ofKey? key with
    | some _ => rfl
    | none =>
        rw [countsFor_eq_false (Field.key_ne_of_ofKey?_eq_none hkey field)]
        rfl

theorem DecidedBy.put {d : Draft} {entries : List (String × Value)} {entry : String × Value}
    (h : d.DecidedBy entries) (hkey : Field.ofKey? entry.1 = none) :
    (d.withExtra (d.record.extra.insert entry.1 entry.2)).DecidedBy (entries ++ [entry]) := by
  constructor
  · have hvalue : (fun field : Field => deciding? (entries ++ [entry]) field.key) =
        fun field => deciding? entries field.key := by
      funext field
      have hother : countsFor field.key entry = false :=
        countsFor_eq_false (Field.key_ne_of_ofKey?_eq_none hkey field).symm
      rw [deciding?_append_singleton, hother]
      rfl
    rw [hvalue]
    exact congrArg (withExtra · (d.record.extra.insert entry.1 entry.2)) h.fields
  · intro key
    change (d.record.extra.insert entry.1 entry.2).get? key = _
    rw [Extra.get?_insert, h.extra, deciding?_append_singleton]
    by_cases hsame : key = entry.1
    · subst hsame
      rw [if_pos rfl, hkey, countsFor_self_of_ofKey?_eq_none hkey]
      rfl
    · rw [if_neg hsame, countsFor_eq_false (Ne.symm hsame)]
      rfl

theorem DecidedBy.add {d d' : Draft} {entries : List (String × Value)} {entry : String × Value}
    (h : d.DecidedBy entries) (hadd : d.add entry = .ok d') : d'.DecidedBy (entries ++ [entry]) := by
  cases hfield : Field.ofKey? entry.1 with
  | some field =>
      rw [Draft.add, hfield] at hadd
      obtain ⟨key, v⟩ := entry
      obtain rfl := Field.key_of_ofKey? hfield
      exact h.set hadd
  | none =>
      rw [Draft.add_extra hfield] at hadd
      cases hadd
      exact h.put hfield

theorem decidedBy_of_foldlM {entries : List (String × Value)} {d : Draft}
    (h : entries.foldlM add {} = .ok d) : d.DecidedBy entries := by
  -- the last entry decides, so the induction is on the end of the list
  induction entries using List.reverseRecOn generalizing d with
  | nil =>
      cases h
      exact decidedBy_nil
  | append_singleton entries entry ih =>
      rw [List.foldlM_append, bind_eq_ok_iff] at h
      obtain ⟨before, hbefore, h⟩ := h
      rw [List.foldlM_cons, bind_eq_ok_iff] at h
      obtain ⟨after, hadd, h⟩ := h
      cases h
      exact (ih hbefore).add hadd

/-- What decides a draft determines it. -/
theorem DecidedBy.eq {d d' : Draft} {entries others : List (String × Value)}
    (h : d.DecidedBy entries) (h' : d'.DecidedBy others)
    (hsame : deciding? entries = deciding? others) : d = d' := by
  have hextra : d.record.extra = d'.record.extra :=
    Extra.ext_get? fun key => by rw [h.extra, h'.extra, hsame]
  calc
    d = ofDeciding (fun field => deciding? entries field.key) d.record.extra := h.fields
    _ = ofDeciding (fun field => deciding? others field.key) d'.record.extra := by
      rw [hsame, hextra]
    _ = d' := h'.fields.symm

end Draft

/-! ## Which lists give a record -/

/-- A list is accepted if each of its entries is, whatever comes before it. -/
theorem exists_ofFields_eq_ok_iff {entries : List (String × Value)} :
    (∃ r, ofFields entries = .ok r) ↔
      Faultless (fun entry e => Draft.add {} entry = .error e) entries := by
  rw [← exists_foldlM_eq_ok_iff Draft.add_error_congr]
  constructor
  · rintro ⟨r, h⟩
    obtain ⟨d, hd, -⟩ := map_eq_ok_iff.mp h
    exact ⟨d, hd⟩
  · rintro ⟨d, hd⟩
    exact ⟨d.finish, map_eq_ok_iff.mpr ⟨d, hd, rfl⟩⟩

/-- A record that a list gives has under every name what its deciding value says. -/
theorem eq_of_ofFields_eq_ok {entries : List (String × Value)} {r : LogRecord}
    (h : ofFields entries = .ok r) :
    r = (Draft.ofDeciding (fun field => deciding? entries field.key) r.extra).finish ∧
      ∀ key, r.extra.get? key =
        if (Field.ofKey? key).isSome then none else deciding? entries key := by
  obtain ⟨d, hd, rfl⟩ := map_eq_ok_iff.mp h
  have hdecided := Draft.decidedBy_of_foldlM hd
  exact ⟨congrArg Draft.finish hdecided.fields, hdecided.extra⟩

theorem ofFields_eq_of_deciding {entries others : List (String × Value)} {r s : LogRecord}
    (h : ofFields entries = .ok r) (h' : ofFields others = .ok s)
    (hsame : deciding? entries = deciding? others) : r = s := by
  obtain ⟨d, hd, rfl⟩ := map_eq_ok_iff.mp h
  obtain ⟨d', hd', rfl⟩ := map_eq_ok_iff.mp h'
  rw [(Draft.decidedBy_of_foldlM hd).eq (Draft.decidedBy_of_foldlM hd') hsame]

theorem ofFields_eq_ok_of_perm {entries others : List (String × Value)} {r : LogRecord}
    (hperm : entries.Perm others) (hkeys : (entries.map Prod.fst).Nodup)
    (h : ofFields entries = .ok r) : ofFields others = .ok r := by
  have haccepted := exists_ofFields_eq_ok_iff.mp ⟨r, h⟩
  obtain ⟨s, hs⟩ := exists_ofFields_eq_ok_iff.mpr fun entry hentry =>
    haccepted entry (hperm.mem_iff.mpr hentry)
  rw [hs, ofFields_eq_of_deciding h hs (deciding?_eq_of_perm hperm hkeys)]

/-- The deciding values give the record. A record that a list gives has under every name what its
deciding value says, so that lists with the same deciding values give the same record if they give
any. And if no name is repeated, the order of the entries does not matter. -/
theorem ofFields_decided_by_last (entries : List (String × Value)) :
    (∀ r, ofFields entries = .ok r →
      r = (Draft.ofDeciding (fun field => deciding? entries field.key) r.extra).finish ∧
        ∀ key, r.extra.get? key =
          if (Field.ofKey? key).isSome then none else deciding? entries key) ∧
    (∀ others r s, ofFields entries = .ok r → ofFields others = .ok s →
      (∀ key, deciding? entries key = deciding? others key) → r = s) ∧
    (∀ others, entries.Perm others → (entries.map Prod.fst).Nodup →
      ∀ r, ofFields entries = .ok r ↔ ofFields others = .ok r) := by
  refine ⟨fun r h => eq_of_ofFields_eq_ok h, fun others r s h h' hsame => ?_,
    fun others hperm hkeys r => ?_⟩
  · exact ofFields_eq_of_deciding h h' (funext hsame)
  · constructor
    · exact ofFields_eq_ok_of_perm hperm hkeys
    · exact ofFields_eq_ok_of_perm hperm.symm ((hperm.map _).nodup_iff.mp hkeys)

/-- Of repeated entries the last ones decide: a nil template is a text, a nil extra field stays, and
a nil name does not take the name away. -/
theorem ofFields_decided_by_last_nil :
    let entries : List (String × Value) := [("x", .int 1), ("name", .text "a"), ("levelno", .int 7),
      ("levelname", .text "ERROR"), ("name", .nil), ("levelno", .nil), ("x", .nil), ("msg", .nil)]
    let others : List (String × Value) := [("name", .text "a"), ("levelname", .text "ERROR"),
      ("levelno", .nil), ("x", .nil), ("msg", .nil)]
    let r : LogRecord := { create "a" .error "None" with extra := Extra.empty.insert "x" .nil }
    (r = (Draft.ofDeciding (fun field => deciding? entries field.key) r.extra).finish ∧
      r.extra.get? "x" = deciding? entries "x") ∧
    (∀ s, ofFields others = .ok s → r = s) ∧
    ofFields others.reverse = .ok r := by
  intro entries others r
  have hentries : ofFields entries = .ok r := rfl
  have hothers : ofFields others = .ok r := rfl
  have hsame : ∀ key, deciding? entries key = deciding? others key := by
    intro key
    by_cases hkey : key ∈ ["x", "name", "levelno", "levelname", "msg"]
    · simp only [List.mem_cons, List.not_mem_nil, or_false] at hkey
      rcases hkey with rfl | rfl | rfl | rfl | rfl
      all_goals rfl
    · simp only [List.mem_cons, List.not_mem_nil, or_false, not_or] at hkey
      simp [entries, others, deciding?, countsFor, hkey, eq_comm]
  have hfields := (ofFields_decided_by_last entries).1 r hentries
  refine ⟨⟨hfields.1, hfields.2 "x"⟩, fun s hs => ?_, ?_⟩
  · exact (ofFields_decided_by_last entries).2.1 others r s hentries hs hsame
  · exact ((ofFields_decided_by_last others).2.2 _ others.reverse_perm.symm (by decide) r).mp hothers

end LogRecord

end LogRelay
