import Mathlib.Data.List.Forall2

/-!
# Traversals that may fail

`List.mapM` with results in `Except` stops at the first failure. A traversal succeeds exactly when
it succeeds at every element, and two traversals that agree element by element agree as a whole.
What a traversal fails with is the fault of the first element that has one.
-/

namespace LogRelay

variable {ε α β γ : Type}

theorem bind_eq_ok_iff {x : Except ε α} {f : α → Except ε β} {b : β} :
    (x >>= f) = .ok b ↔ ∃ a, x = .ok a ∧ f a = .ok b := by
  cases x with
  | error e => exact ⟨fun h => (nomatch h), fun ⟨_, h, _⟩ => (nomatch h)⟩
  | ok a => exact ⟨fun h => ⟨a, rfl, h⟩, fun ⟨_, ha, h⟩ => Except.ok.inj ha ▸ h⟩

theorem bind_eq_error_iff {x : Except ε α} {f : α → Except ε β} {e : ε} :
    (x >>= f) = .error e ↔ x = .error e ∨ ∃ a, x = .ok a ∧ f a = .error e := by
  cases x with
  | error e' =>
      constructor
      · intro h
        exact .inl (congrArg _ (Except.error.inj h))
      · rintro (h | ⟨_, h, _⟩)
        · exact congrArg _ (Except.error.inj h)
        · cases h
  | ok a =>
      constructor
      · intro h
        exact .inr ⟨a, rfl, h⟩
      · rintro (h | ⟨_, ha, h⟩)
        · cases h
        · exact Except.ok.inj ha ▸ h

theorem map_eq_ok_iff {x : Except ε α} {f : α → β} {b : β} :
    x.map f = .ok b ↔ ∃ a, x = .ok a ∧ f a = b := by
  cases x with
  | error e => exact ⟨fun h => (nomatch h), fun ⟨_, h, _⟩ => (nomatch h)⟩
  | ok a =>
      constructor
      · intro h
        exact ⟨a, rfl, Except.ok.inj h⟩
      · rintro ⟨_, ha, rfl⟩
        cases ha
        rfl

theorem map_eq_error_iff {x : Except ε α} {f : α → β} {e : ε} :
    x.map f = .error e ↔ x = .error e := by
  cases x with
  | error e' =>
      constructor
      · exact fun h => congrArg _ (Except.error.inj h)
      · exact fun h => congrArg _ (Except.error.inj h)
  | ok a => exact ⟨fun h => (nomatch h), fun h => (nomatch h)⟩

theorem exists_eq_ok_iff {x : Except ε α} : (∃ a, x = .ok a) ↔ ∀ e, x ≠ .error e := by
  cases x with
  | error e => exact ⟨fun ⟨_, h⟩ => (nomatch h), fun h => absurd rfl (h e)⟩
  | ok a => exact ⟨fun _ _ h => (nomatch h), fun _ => ⟨a, rfl⟩⟩

theorem mapM_eq_ok_iff {f : α → Except ε β} {as : List α} {bs : List β} :
    as.mapM f = .ok bs ↔ List.Forall₂ (fun a b => f a = .ok b) as bs := by
  induction as generalizing bs with
  | nil =>
      constructor
      · intro h
        cases h
        exact .nil
      · intro h
        cases h
        rfl
  | cons a as ih =>
      simp only [List.mapM_cons, bind_eq_ok_iff]
      constructor
      · rintro ⟨b, hhead, rest, htail, hbs⟩
        cases hbs
        exact .cons hhead (ih.mp htail)
      · intro h
        cases h with
        | cons hhead htail => exact ⟨_, hhead, _, ih.mpr htail, rfl⟩

theorem forall_of_mapM_eq_ok {f : α → Except ε β} {p : β → Prop} {as : List α} {bs : List β}
    (h : as.mapM f = .ok bs) (hp : ∀ a b, f a = .ok b → p b) : ∀ b ∈ bs, p b := by
  have hall := mapM_eq_ok_iff.mp h
  clear h
  induction hall with
  | nil => simp
  | cons hhead _ ih => exact List.forall_mem_cons.mpr ⟨hp _ _ hhead, ih⟩

theorem mapM_eq_ok_map {f : α → Except ε β} {g : α → β} {as : List α}
    (h : ∀ a ∈ as, f a = .ok (g a)) : as.mapM f = .ok (as.map g) := by
  induction as with
  | nil => rfl
  | cons a as ih =>
      obtain ⟨hhead, htail⟩ := List.forall_mem_cons.mp h
      rw [List.mapM_cons, hhead, ih htail]
      rfl

/-- The result is the expected one if that is good, and a fixed failure otherwise. -/
structure Guarded (good : β → Prop) (e : ε) (x : Except ε β) (b : β) : Prop where
  /-- What is good is the result. -/
  ok : good b → x = .ok b
  /-- What is not good fails. -/
  error : ¬good b → x = .error e

/-- A traversal whose results are all guarded alike stops if any of them is not good. -/
theorem Guarded.mapM {good : β → Prop} {e : ε} {f : α → Except ε β} {as : List α} {bs : List β}
    (h : List.Forall₂ (fun a b => Guarded good e (f a) b) as bs) :
    Guarded (fun bs => ∀ b ∈ bs, good b) e (as.mapM f) bs := by
  induction h with
  | nil => exact ⟨fun _ => rfl, fun h => absurd (by simp) h⟩
  | @cons a b as bs hhead _ ih =>
      rw [List.mapM_cons]
      constructor
      · intro hgood
        obtain ⟨hb, hbs⟩ := List.forall_mem_cons.mp hgood
        rw [hhead.ok hb, ih.ok hbs]
        rfl
      · intro hbad
        by_cases hb : good b
        · have hbs : ¬∀ b ∈ bs, good b := fun h => hbad (List.forall_mem_cons.mpr ⟨hb, h⟩)
          rw [hhead.ok hb, ih.error hbs]
          rfl
        · rw [hhead.error hb]
          rfl

theorem exists_of_mapM_eq_error {f : α → Except ε β} {e : ε} {as : List α}
    (h : as.mapM f = .error e) : ∃ a ∈ as, f a = .error e := by
  induction as with
  | nil => cases h
  | cons a as ih =>
      rw [List.mapM_cons, bind_eq_error_iff] at h
      rcases h with h | ⟨b, -, h⟩
      · exact ⟨a, List.mem_cons_self, h⟩
      · rw [bind_eq_error_iff] at h
        rcases h with h | ⟨bs, -, h⟩
        · obtain ⟨a', hmem, ha'⟩ := ih h
          exact ⟨a', List.mem_cons_of_mem a hmem, ha'⟩
        · cases h

theorem exists_of_foldlM_eq_error {f : β → α → Except ε β} {e : ε} {as : List α} {b : β}
    (h : as.foldlM f b = .error e) : ∃ b', ∃ a ∈ as, f b' a = .error e := by
  induction as generalizing b with
  | nil => cases h
  | cons a as ih =>
      rw [List.foldlM_cons, bind_eq_error_iff] at h
      rcases h with h | ⟨b', -, h⟩
      · exact ⟨b, a, List.mem_cons_self, h⟩
      · obtain ⟨b'', a', hmem, ha'⟩ := ih h
        exact ⟨b'', a', List.mem_cons_of_mem a hmem, ha'⟩

/-- What each step of a successful run preserves holds at its end. -/
theorem foldlM_eq_ok_induction {f : β → α → Except ε β} (good : β → Prop) {as : List α} {b b' : β}
    (h : as.foldlM f b = .ok b') (start : good b)
    (step : ∀ a ∈ as, ∀ b b', good b → f b a = .ok b' → good b') : good b' := by
  induction as generalizing b with
  | nil =>
      cases h
      exact start
  | cons a as ih =>
      obtain ⟨hhead, htail⟩ := List.forall_mem_cons.mp step
      obtain ⟨next, hnext, h⟩ := bind_eq_ok_iff.mp (List.foldlM_cons.symm.trans h)
      exact ih h (hhead b next start hnext) htail

theorem exists_mem_of_forall₂ {R : α → β → Prop} {as : List α} {bs : List β} {b : β}
    (h : List.Forall₂ R as bs) (hb : b ∈ bs) : ∃ a ∈ as, R a b := by
  induction h with
  | nil => cases hb
  | @cons a b' as bs hhead _ ih =>
      rcases List.mem_cons.mp hb with rfl | hb
      · exact ⟨a, List.mem_cons_self, hhead⟩
      · obtain ⟨a', hmem, hrelated⟩ := ih hb
        exact ⟨a', List.mem_cons_of_mem a hmem, hrelated⟩

theorem forall₂_and_right {R : α → β → Prop} {p : β → Prop} {as : List α} {bs : List β} :
    List.Forall₂ (fun a b => R a b ∧ p b) as bs ↔ List.Forall₂ R as bs ∧ ∀ b ∈ bs, p b := by
  constructor
  · intro h
    induction h with
    | nil => exact ⟨.nil, by simp⟩
    | cons hhead _ ih =>
        exact ⟨.cons hhead.1 ih.1, List.forall_mem_cons.mpr ⟨hhead.2, ih.2⟩⟩
  · rintro ⟨h, hall⟩
    induction h with
    | nil => exact .nil
    | cons hhead _ ih =>
        obtain ⟨hb, hbs⟩ := List.forall_mem_cons.mp hall
        exact .cons ⟨hhead, hb⟩ (ih hbs)

theorem forall₂_comp {R : α → β → Prop} {S : β → γ → Prop} {T : α → γ → Prop} {as : List α}
    {bs : List β} {cs : List γ} (hT : ∀ a b c, R a b → S b c → T a c) (h : List.Forall₂ R as bs)
    (h' : List.Forall₂ S bs cs) : List.Forall₂ T as cs := by
  induction h generalizing cs with
  | nil =>
      cases h'
      exact .nil
  | cons hhead _ ih =>
      cases h' with
      | cons hhead' htail' => exact .cons (hT _ _ _ hhead hhead') (ih htail')

/-- A relation that is the graph of a function on a list relates the list to its image only. -/
theorem forall₂_iff_map_eq {R : α → β → Prop} {f : α → β} {as : List α} {bs : List β}
    (h : ∀ a ∈ as, ∀ b, R a b ↔ f a = b) : List.Forall₂ R as bs ↔ as.map f = bs := by
  induction as generalizing bs with
  | nil =>
      rw [List.forall₂_nil_left_iff, List.map_nil]
      exact eq_comm
  | cons a as ih =>
      obtain ⟨hhead, htail⟩ := List.forall_mem_cons.mp h
      rw [List.forall₂_cons_left_iff, List.map_cons]
      constructor
      · rintro ⟨b, rest, hb, hrest, rfl⟩
        rw [(hhead b).mp hb, (ih htail).mp hrest]
      · rintro rfl
        exact ⟨f a, as.map f, (hhead _).mpr rfl, (ih htail).mpr rfl, rfl⟩

/-- Rewriting the results of a traversal is a traversal with rewritten results. -/
theorem map_mapM (f : α → Except ε β) (p : β → γ) (as : List α) :
    (as.mapM f).map (List.map p) = as.mapM fun a => (f a).map p := by
  induction as with
  | nil => rfl
  | cons a as ih =>
      rw [List.mapM_cons, List.mapM_cons, ← ih]
      cases f a with
      | error e => rfl
      | ok b =>
          cases as.mapM f with
          | error e => rfl
          | ok rest => rfl

theorem mapM_congr_forall₂ {f : α → Except ε γ} {g : β → Except ε γ} {as : List α} {bs : List β}
    (h : List.Forall₂ (fun a b => f a = g b) as bs) : as.mapM f = bs.mapM g := by
  induction h with
  | nil => rfl
  | cons hhead _ ih => rw [List.mapM_cons, List.mapM_cons, hhead, ih]

/-! ## First faults -/

/-- The first element that has a fault has this one. -/
inductive FirstFault (Fault : α → ε → Prop) : List α → ε → Prop
  | here {a : α} {as : List α} {e : ε} (fault : Fault a e) : FirstFault Fault (a :: as) e
  | later {a : α} {as : List α} {e : ε} (clear : ∀ e, ¬Fault a e)
      (rest : FirstFault Fault as e) : FirstFault Fault (a :: as) e

/-- No element has a fault. -/
def Faultless (Fault : α → ε → Prop) (as : List α) : Prop :=
  ∀ a ∈ as, ∀ e, ¬Fault a e

variable {Fault : α → ε → Prop} {as : List α} {e : ε}

theorem FirstFault.exists_mem (h : FirstFault Fault as e) : ∃ a ∈ as, Fault a e := by
  induction h with
  | here fault => exact ⟨_, List.mem_cons_self, fault⟩
  | later _ _ ih =>
      obtain ⟨a, hmem, hfault⟩ := ih
      exact ⟨a, List.mem_cons_of_mem _ hmem, hfault⟩

theorem faultless_iff_forall_not_firstFault :
    Faultless Fault as ↔ ∀ e, ¬FirstFault Fault as e := by
  constructor
  · intro h e hfirst
    obtain ⟨a, hmem, hfault⟩ := hfirst.exists_mem
    exact h a hmem e hfault
  · intro h
    induction as with
    | nil => exact List.forall_mem_nil _
    | cons a as ih =>
        have hclear : ∀ e, ¬Fault a e := fun e hfault => h e (.here hfault)
        exact List.forall_mem_cons.mpr ⟨hclear, ih fun e hrest => h e (.later hclear hrest)⟩

theorem exists_firstFault_iff : (∃ e, FirstFault Fault as e) ↔ ∃ a ∈ as, ∃ e, Fault a e := by
  constructor
  · rintro ⟨e, hfirst⟩
    obtain ⟨a, hmem, hfault⟩ := hfirst.exists_mem
    exact ⟨a, hmem, e, hfault⟩
  · rintro ⟨a, hmem, e, hfault⟩
    by_contra hnone
    exact faultless_iff_forall_not_firstFault.mpr (fun e h => hnone ⟨e, h⟩) a hmem e hfault

/-- Elements with the same faults have the same first fault. -/
theorem firstFault_congr {Flaw : β → ε → Prop} {bs : List β}
    (h : List.Forall₂ (fun a b => ∀ e, Fault a e ↔ Flaw b e) as bs) :
    FirstFault Fault as e ↔ FirstFault Flaw bs e := by
  induction h with
  | nil => exact ⟨fun h => (nomatch h), fun h => (nomatch h)⟩
  | cons hhead _ ih =>
      constructor
      · intro h
        cases h with
        | here fault => exact .here ((hhead e).mp fault)
        | later clear rest => exact .later (fun e hflaw => clear e ((hhead e).mpr hflaw)) (ih.mp rest)
      · intro h
        cases h with
        | here fault => exact .here ((hhead e).mpr fault)
        | later clear rest => exact .later (fun e hfault => clear e ((hhead e).mp hfault)) (ih.mpr rest)

theorem mapM_eq_error_iff {f : α → Except ε β} (hf : ∀ a e, f a = .error e ↔ Fault a e) :
    as.mapM f = .error e ↔ FirstFault Fault as e := by
  induction as with
  | nil => exact ⟨fun h => (nomatch h), fun h => (nomatch h)⟩
  | cons a as ih =>
      rw [List.mapM_cons, bind_eq_error_iff, hf]
      constructor
      · rintro (hfault | ⟨b, hb, h⟩)
        · exact .here hfault
        · refine .later (fun e hfault => ?_) (ih.mp ?_)
          · cases hb.symm.trans ((hf a e).mpr hfault)
          · simpa [bind_eq_error_iff, pure, Except.pure] using h
      · intro h
        cases h with
        | here fault => exact .inl fault
        | later clear rest =>
            cases hb : f a with
            | error e' => exact absurd ((hf a e').mp hb) (clear e')
            | ok b => exact .inr ⟨b, rfl, bind_eq_error_iff.mpr (.inl (ih.mpr rest))⟩

theorem exists_mapM_eq_ok_iff {f : α → Except ε β} (hf : ∀ a e, f a = .error e ↔ Fault a e) :
    (∃ bs, as.mapM f = .ok bs) ↔ Faultless Fault as := by
  rw [exists_eq_ok_iff, faultless_iff_forall_not_firstFault]
  exact forall_congr' fun e => not_congr (mapM_eq_error_iff hf)

/-- A run whose steps fail whatever came before fails at the first step that does. -/
theorem foldlM_eq_error_iff {f : β → α → Except ε β} (hf : ∀ b a e, f b a = .error e ↔ Fault a e)
    {b : β} : as.foldlM f b = .error e ↔ FirstFault Fault as e := by
  induction as generalizing b with
  | nil => exact ⟨fun h => (nomatch h), fun h => (nomatch h)⟩
  | cons a as ih =>
      rw [List.foldlM_cons, bind_eq_error_iff, hf]
      constructor
      · rintro (hfault | ⟨b', hb, h⟩)
        · exact .here hfault
        · refine .later (fun e hfault => ?_) (ih.mp h)
          cases hb.symm.trans ((hf b a e).mpr hfault)
      · intro h
        cases h with
        | here fault => exact .inl fault
        | later clear rest =>
            cases hb : f b a with
            | error e' => exact absurd ((hf b a e').mp hb) (clear e')
            | ok b' => exact .inr ⟨b', rfl, ih.mpr rest⟩

theorem exists_foldlM_eq_ok_iff {f : β → α → Except ε β}
    (hf : ∀ b a e, f b a = .error e ↔ Fault a e) {b : β} :
    (∃ b', as.foldlM f b = .ok b') ↔ Faultless Fault as := by
  rw [exists_eq_ok_iff, faultless_iff_forall_not_firstFault]
  exact forall_congr' fun e => not_congr (foldlM_eq_error_iff hf)

end LogRelay
