-- Runs of a step function: the state after a list of actions, what holds in
-- every state on the way, which step made it so, and what is left of a run when
-- some of its actions are dropped. Nothing here knows which system takes the steps.
import Mathlib.Data.List.Induction

namespace Runs

variable {S S' A : Type*}

/-- The state after the actions of a run. -/
def exec (step : S → A → S) (s : S) (as : List A) : S := as.foldl step s

/-- `P` holds in every state of the run, the first and the last one included. -/
def Always (step : S → A → S) (P : S → Prop) : S → List A → Prop
  | s, [] => P s
  | s, a :: as => P s ∧ Always step P (step s a) as

/-- Every action of the run meets `C` in the state in which it is taken. -/
def Each (step : S → A → S) (C : S → A → Prop) : S → List A → Prop
  | _, [] => True
  | s, a :: as => C s a ∧ Each step C (step s a) as

/-- A run can be tested state by state. -/
instance decidableAlways (step : S → A → S) (P : S → Prop) [DecidablePred P] :
    ∀ s as, Decidable (Always step P s as)
  | s, [] => inferInstanceAs (Decidable (P s))
  | s, a :: as =>
    have := decidableAlways step P (step s a) as
    inferInstanceAs (Decidable (P s ∧ Always step P (step s a) as))

instance decidableEach (step : S → A → S) (C : S → A → Prop) [∀ s a, Decidable (C s a)] :
    ∀ s as, Decidable (Each step C s as)
  | _, [] => inferInstanceAs (Decidable True)
  | s, a :: as =>
    have := decidableEach step C (step s a) as
    inferInstanceAs (Decidable (C s a ∧ Each step C (step s a) as))

variable {step : S → A → S} {P I : S → Prop} {C D : S → A → Prop}

@[simp] theorem exec_nil (s : S) : exec step s [] = s := rfl

@[simp] theorem exec_cons (s : S) (a : A) (as : List A) :
    exec step s (a :: as) = exec step (step s a) as := rfl

theorem exec_append (s : S) (as bs : List A) :
    exec step s (as ++ bs) = exec step (exec step s as) bs := List.foldl_append ..

theorem exec_snoc (s : S) (as : List A) (a : A) :
    exec step s (as ++ [a]) = step (exec step s as) a := by
  rw [exec_append]; rfl

/-- Every state of a run is the state after some first part of it. -/
theorem always_iff (s : S) (as : List A) :
    Always step P s as ↔ ∀ pre, pre <+: as → P (exec step s pre) := by
  induction as generalizing s with
  | nil => simp [Always]
  | cons a as ih =>
    simp only [Always, ih]
    constructor
    · rintro ⟨h, hrest⟩ pre hpre
      rcases List.prefix_cons_iff.mp hpre with rfl | ⟨t, rfl, ht⟩
      · exact h
      · exact hrest t ht
    · intro h
      refine ⟨h [] List.nil_prefix, fun pre hpre => ?_⟩
      exact h (a :: pre) (List.cons_prefix_cons.mpr ⟨rfl, hpre⟩)

theorem Always.head {s : S} {as : List A} (h : Always step P s as) : P s := by
  cases as with
  | nil => exact h
  | cons a as => exact h.1

theorem Always.last {s : S} {as : List A} (h : Always step P s as) : P (exec step s as) :=
  (always_iff s as).mp h as List.prefix_rfl

theorem Always.mono {s : S} {as : List A} (h : Always step I s as) (hIP : ∀ s, I s → P s) :
    Always step P s as := by
  rw [always_iff] at h ⊢
  exact fun pre hpre => hIP _ (h pre hpre)

theorem each_append (s : S) (as bs : List A) :
    Each step C s (as ++ bs) ↔ Each step C s as ∧ Each step C (exec step s as) bs := by
  induction as generalizing s with
  | nil => simp [Each]
  | cons a as ih => simp [Each, ih, and_assoc]

theorem each_snoc (s : S) (as : List A) (a : A) :
    Each step C s (as ++ [a]) ↔ Each step C s as ∧ C (exec step s as) a := by
  simp [each_append, Each]

theorem each_true (s : S) (as : List A) : Each step (fun _ _ => True) s as := by
  induction as generalizing s with
  | nil => trivial
  | cons a as ih => exact ⟨trivial, ih _⟩

theorem each_mono {s : S} {as : List A} (hCD : ∀ s a, C s a → D s a) (h : Each step C s as) :
    Each step D s as := by
  induction as generalizing s with
  | nil => trivial
  | cons a as ih => exact ⟨hCD _ _ h.1, ih h.2⟩

theorem each_of_forall_mem {s : S} {as : List A} (h : ∀ a ∈ as, ∀ s, C s a) : Each step C s as := by
  induction as generalizing s with
  | nil => trivial
  | cons a as ih => exact ⟨h a List.mem_cons_self s, ih fun b hb => h b (List.mem_cons_of_mem _ hb)⟩

/-- What holds in every state holds around every step. -/
theorem each_of_always {s : S} {as : List A} (h : Always step P s as) :
    Each step (fun s a => P s ∧ P (step s a)) s as := by
  induction as generalizing s with
  | nil => trivial
  | cons a as ih => exact ⟨⟨h.1, h.2.head⟩, ih h.2⟩

theorem each_and {s : S} {as : List A} (hC : Each step C s as) (hD : Each step D s as) :
    Each step (fun s a => C s a ∧ D s a) s as := by
  induction as generalizing s with
  | nil => trivial
  | cons a as ih => exact ⟨⟨hC.1, hD.1⟩, ih hC.2 hD.2⟩

/-! ## Invariants -/

/-- What one step keeps, a run keeps. -/
theorem exec_invariant {s : S} {as : List A} (h0 : I s)
    (hstep : ∀ s a, I s → C s a → I (step s a)) (hC : Each step C s as) :
    I (exec step s as) := by
  induction as generalizing s with
  | nil => exact h0
  | cons a as ih => exact ih (hstep s a h0 hC.1) hC.2

theorem always_invariant {s : S} {as : List A} (h0 : I s)
    (hstep : ∀ s a, I s → C s a → I (step s a)) (hC : Each step C s as) :
    Always step I s as := by
  induction as generalizing s with
  | nil => exact h0
  | cons a as ih => exact ⟨h0, ih (hstep s a h0 hC.1) hC.2⟩

/-- When a step out of a state with `P` keeps `P` exactly under `C`, a run
keeps `P` exactly when each of its steps meets `C`. The rule may use an
invariant `I` of the runs whose actions are all enabled. -/
theorem always_iff_each {s : S} {as : List A} (hI : I s) (hP : P s)
    (hkeep : ∀ s a, I s → D s a → I (step s a))
    (hiff : ∀ s a, I s → D s a → P s → (P (step s a) ↔ C s a))
    (hD : Each step D s as) : Always step P s as ↔ Each step C s as := by
  induction as generalizing s with
  | nil => simp [Always, Each, hP]
  | cons a as ih =>
    simp only [Always, Each]
    constructor
    · rintro ⟨_, hrest⟩
      have hnext : P (step s a) := hrest.head
      exact ⟨(hiff s a hI hD.1 hP).mp hnext, (ih (hkeep s a hI hD.1) hnext hD.2).mp hrest⟩
    · rintro ⟨hCa, hrest⟩
      have hnext : P (step s a) := (hiff s a hI hD.1 hP).mpr hCa
      exact ⟨hP, (ih (hkeep s a hI hD.1) hnext hD.2).mpr hrest⟩

/-- When `F s t` says that `t` can come after `s`, the last state of a run comes after each of its
steps. -/
theorem each_future {F : S → S → Prop} {s : S} {as : List A} (hrefl : ∀ s, F s s)
    (hstep : ∀ s a t, C s a → F (step s a) t → F s t) (hC : Each step C s as) :
    F s (exec step s as) ∧ Each step (fun s' a => F (step s' a) (exec step s as)) s as := by
  induction as generalizing s with
  | nil => exact ⟨hrefl s, trivial⟩
  | cons a as ih =>
    obtain ⟨hlast, heach⟩ := ih hC.2
    exact ⟨hstep s a _ hC.1 hlast, hlast, heach⟩

/-! ## What happened in a run -/

/-- The run takes the action `a` in the state `t`. -/
def Takes (step : S → A → S) (s : S) (as : List A) (t : S) (a : A) : Prop :=
  ∃ before after, as = before ++ a :: after ∧ exec step s before = t

theorem takes_snoc {s t : S} {as : List A} {a b : A} :
    Takes step s (as ++ [a]) t b ↔ Takes step s as t b ∨ exec step s as = t ∧ a = b := by
  constructor
  · rintro ⟨before, after, has, rfl⟩
    rcases List.eq_nil_or_concat after with rfl | ⟨after, c, rfl⟩
    · obtain ⟨rfl, hab⟩ := List.append_inj' has rfl
      exact Or.inr ⟨rfl, List.singleton_inj.mp hab⟩
    · rw [List.concat_eq_append, ← List.cons_append, ← List.append_assoc] at has
      exact Or.inl ⟨before, after, (List.append_inj' has rfl).1, rfl⟩
  · rintro (⟨before, after, rfl, rfl⟩ | ⟨rfl, rfl⟩)
    · exact ⟨before, after ++ [a], by simp, rfl⟩
    · exact ⟨as, [], rfl, rfl⟩

theorem Takes.mem {s t : S} {as : List A} {a : A} (h : Takes step s as t a) : a ∈ as := by
  obtain ⟨before, after, rfl, -⟩ := h
  simp

theorem Takes.append {s t : S} {as : List A} {a : A} (h : Takes step s as t a) (bs : List A) :
    Takes step s (as ++ bs) t a := by
  obtain ⟨before, after, rfl, rfl⟩ := h
  exact ⟨before, after ++ bs, by simp, rfl⟩

theorem each_iff_takes (s : S) (as : List A) :
    Each step C s as ↔ ∀ t a, Takes step s as t a → C t a := by
  induction as using List.reverseRecOn with
  | nil => simp [Each, Takes]
  | append_singleton as a ih =>
    simp only [each_snoc, takes_snoc, ih]
    constructor
    · rintro ⟨has, ha⟩ t b (hb | ⟨rfl, rfl⟩)
      · exact has t b hb
      · exact ha
    · intro h
      exact ⟨fun t b hb => h t b (Or.inl hb), h _ a (Or.inr ⟨rfl, rfl⟩)⟩

/-- What one step makes true and the steps after it keep is true at the end. -/
theorem Takes.exec {s t : S} {as : List A} {a : A} (h : Takes step s as t a) (hC : Each step C s as)
    (hmade : C t a → I (step t a)) (hkept : ∀ s a, I s → C s a → I (step s a)) :
    I (exec step s as) := by
  obtain ⟨before, after, rfl, rfl⟩ := h
  obtain ⟨-, ha, hafter⟩ := (each_append s before (a :: after)).mp hC
  rw [exec_append, exec_cons]
  exact exec_invariant (hmade ha) hkept hafter

/-- What is true at the end was true at the start, or one step made it true. -/
theorem exec_origin {s : S} {as : List A} (hstep : ∀ s a, I (step s a) → I s ∨ C s a)
    (h : I (exec step s as)) : I s ∨ ∃ t a, Takes step s as t a ∧ C t a := by
  induction as using List.reverseRecOn with
  | nil => exact Or.inl h
  | append_singleton as a ih =>
    rw [exec_snoc] at h
    rcases hstep _ _ h with h | h
    · rcases ih h with h | ⟨t, b, htakes, hb⟩
      · exact Or.inl h
      · exact Or.inr ⟨t, b, takes_snoc.mpr (Or.inl htakes), hb⟩
    · exact Or.inr ⟨_, a, takes_snoc.mpr (Or.inr ⟨rfl, rfl⟩), h⟩

/-! ## Runs with actions dropped -/

/-- A run and the run with some actions dropped stay related, when an action
that is kept moves both sides along the relation and a dropped action moves
the left side only. -/
theorem exec_filter_related {step' : S' → A → S'} {R : S → S' → Prop} {keep : A → Bool}
    {s : S} {s' : S'} {as : List A} (h0 : R s s')
    (hkeep : ∀ s s' a, R s s' → C s a → keep a = true → R (step s a) (step' s' a))
    (hdrop : ∀ s s' a, R s s' → C s a → keep a = false → R (step s a) s')
    (hC : Each step C s as) : R (exec step s as) (exec step' s' (as.filter keep)) := by
  induction as generalizing s s' with
  | nil => exact h0
  | cons a as ih =>
    cases hk : keep a with
    | true =>
      rw [List.filter_cons_of_pos hk]
      exact ih (hkeep s s' a h0 hC.1 hk) hC.2
    | false =>
      rw [List.filter_cons_of_neg (by simp [hk])]
      exact ih (hdrop s s' a h0 hC.1 hk) hC.2

/-! ## Simulation -/

/-- When every step of one system is matched by steps of another that keep the
two related, so is every run. The matching steps meet `E` when the matched ones meet `C`. -/
theorem exec_simulated {B : Type*} {step' : S' → B → S'} {R : S → S' → Prop} {E : S' → B → Prop}
    (hstep : ∀ s s' a, R s s' →
      ∃ bs, R (step s a) (exec step' s' bs) ∧ (C s a → Each step' E s' bs))
    {s : S} {s' : S'} (h0 : R s s') (as : List A) :
    ∃ bs, R (exec step s as) (exec step' s' bs) ∧ (Each step C s as → Each step' E s' bs) := by
  induction as generalizing s s' with
  | nil => exact ⟨[], h0, fun _ => trivial⟩
  | cons a as ih =>
    obtain ⟨bs, hnext, hbs⟩ := hstep s s' a h0
    obtain ⟨bs', hlast, hbs'⟩ := ih hnext
    refine ⟨bs ++ bs', ?_, ?_⟩
    · rw [exec_cons, exec_append]
      exact hlast
    · rintro ⟨ha, has⟩
      exact (each_append s' bs bs').mpr ⟨hbs ha, hbs' has⟩

/-- The run with each action replaced by the actions that `f` gives for it in its state. -/
def translate {B : Type*} (step : S → A → S) (f : S → A → List B) : S → List A → List B
  | _, [] => []
  | s, a :: as => f s a ++ translate step f (step s a) as

/-- A run and its translation stay related, when each action and what it is replaced by do. -/
theorem exec_translate {B : Type*} {step' : S' → B → S'} {R : S → S' → Prop} {f : S → A → List B}
    {s : S} {s' : S'} {as : List A} (h0 : R s s')
    (hstep : ∀ s s' a, R s s' → C s a → R (step s a) (exec step' s' (f s a)))
    (hC : Each step C s as) : R (exec step s as) (exec step' s' (translate step f s as)) := by
  induction as generalizing s s' with
  | nil => exact h0
  | cons a as ih =>
    rw [translate, exec_append, exec_cons]
    exact ih (hstep s s' a h0 hC.1) hC.2

end Runs
