-- Trees addressed by paths of keys, with a value at each leaf. A write at a
-- path replaces what stood there and makes the nodes above it as needed, so a
-- leaf on the way gives way. Every law below holds for every tree and every path.
import Mathlib.Data.List.Infix
import Mathlib.Data.List.Nodup
import Mathlib.Order.Lattice

namespace PathTree

/-- A leaf with its value, or a node with its children. -/
inductive Node (K V : Type) where
  | leaf (value : V)
  | dict (children : List (K × Node K V))

variable {K V : Type}

/-- The children of a node. A leaf has none. -/
def Node.children : Node K V → List (K × Node K V)
  | .leaf _ => []
  | .dict cs => cs

@[simp] theorem Node.children_leaf (v : V) : (Node.leaf v : Node K V).children = [] := rfl

@[simp] theorem Node.children_dict (cs : List (K × Node K V)) : (Node.dict cs).children = cs := rfl

/-- The empty tree. -/
def Node.empty : Node K V := .dict []

/-! ## Paths -/

/-- Neither path leads through the other. -/
def Apart (p q : List K) : Prop := ¬ p <+: q ∧ ¬ q <+: p

instance [DecidableEq K] (p q : List K) : Decidable (Apart p q) := inferInstanceAs (Decidable (_ ∧ _))

theorem Apart.symm {p q : List K} (h : Apart p q) : Apart q p := ⟨h.2, h.1⟩

@[simp] theorem apart_cons_cons (k : K) (p q : List K) : Apart (k :: p) (k :: q) ↔ Apart p q := by
  simp [Apart, List.cons_prefix_cons]

theorem apart_cons_of_ne {j k : K} (p q : List K) (h : j ≠ k) : Apart (j :: p) (k :: q) := by
  simp [Apart, List.cons_prefix_cons, h, h.symm]

theorem Apart.append_left {p q : List K} (h : Apart p q) (r : List K) : Apart (p ++ r) q := by
  refine ⟨fun hpre => h.1 ((List.prefix_append p r).trans hpre), fun hpre => ?_⟩
  rcases List.prefix_or_prefix_of_prefix (List.prefix_append p r) hpre with hpq | hqp
  · exact h.1 hpq
  · exact h.2 hqp

variable [LinearOrder K]

/-! ## Children in key order -/

/-- The entries with `k` at its place in key order. An entry that had the key gives way. -/
def put {α : Type} (k : K) (a : α) : List (K × α) → List (K × α)
  | [] => [(k, a)]
  | (k', a') :: cs =>
    if k < k' then (k, a) :: (k', a') :: cs
    else if k = k' then (k, a) :: cs
    else (k', a') :: put k a cs

section Put
variable {α : Type}

theorem lookup_cons_of_ne {j k : K} (a : α) (cs : List (K × α)) (h : j ≠ k) :
    ((k, a) :: cs).lookup j = cs.lookup j := by
  rw [List.lookup_cons, beq_eq_false_iff_ne.mpr h]

@[simp] theorem lookup_put_self (k : K) (a : α) (cs : List (K × α)) :
    (put k a cs).lookup k = some a := by
  induction cs with
  | nil => simp [put]
  | cons c cs ih =>
    obtain ⟨k', a'⟩ := c
    simp only [put]
    split
    · simp
    · split
      · simp
      · rename_i hne
        rw [lookup_cons_of_ne _ _ hne, ih]

theorem lookup_put_of_ne {j k : K} (a : α) (cs : List (K × α)) (h : j ≠ k) :
    (put k a cs).lookup j = cs.lookup j := by
  induction cs with
  | nil => simp [put, h]
  | cons c cs ih =>
    obtain ⟨k', a'⟩ := c
    simp only [put]
    split
    · rw [lookup_cons_of_ne _ _ h]
    · split
      · rename_i hk
        subst hk
        rw [lookup_cons_of_ne _ _ h, lookup_cons_of_ne _ _ h]
      · rw [List.lookup_cons, List.lookup_cons, ih]

theorem mem_keys_put {j k : K} {a : α} {cs : List (K × α)} :
    j ∈ (put k a cs).map Prod.fst ↔ j = k ∨ j ∈ cs.map Prod.fst := by
  induction cs with
  | nil => simp [put]
  | cons c cs ih =>
    obtain ⟨k', a'⟩ := c
    simp only [put]
    split
    · simp
    · split
      · rename_i hk
        subst hk
        simp
      · simp only [List.map_cons, List.mem_cons, ih]
        tauto

theorem mem_put {c : K × α} {k : K} {a : α} {cs : List (K × α)} (h : c ∈ put k a cs) :
    c = (k, a) ∨ c ∈ cs := by
  induction cs with
  | nil => simpa [put] using h
  | cons d cs ih =>
    obtain ⟨k', a'⟩ := d
    simp only [put] at h
    split at h
    · simpa using h
    · split at h
      · rcases List.mem_cons.mp h with h | h
        · exact Or.inl h
        · exact Or.inr (List.mem_cons_of_mem _ h)
      · rcases List.mem_cons.mp h with h | h
        · exact Or.inr (h ▸ List.mem_cons_self)
        · exact (ih h).imp_right (List.mem_cons_of_mem _)

/-- A key above every other key goes to the end. -/
theorem put_of_forall_lt {k : K} {a : α} {cs : List (K × α)} (h : ∀ j ∈ cs.map Prod.fst, j < k) :
    put k a cs = cs ++ [(k, a)] := by
  induction cs with
  | nil => rfl
  | cons c cs ih =>
    obtain ⟨k', a'⟩ := c
    have hk : k' < k := h k' (by simp)
    simp only [put, not_lt_of_gt hk, ne_of_gt hk, if_false, List.cons_append]
    rw [ih (fun j hj => h j (List.mem_cons_of_mem _ hj))]

/-- The keys stand in strictly increasing order. -/
def Sorted (cs : List (K × α)) : Prop := (cs.map Prod.fst).Pairwise (· < ·)

theorem sorted_put {k : K} {a : α} {cs : List (K × α)} (h : Sorted cs) : Sorted (put k a cs) := by
  induction cs with
  | nil => simp [Sorted, put]
  | cons c cs ih =>
    obtain ⟨k', a'⟩ := c
    obtain ⟨hhead, htail⟩ := List.pairwise_cons.mp h
    simp only [put]
    split
    · rename_i hlt
      refine List.pairwise_cons.mpr ⟨fun j hj => ?_, h⟩
      rcases List.mem_cons.mp hj with rfl | hj
      · exact hlt
      · exact lt_trans hlt (hhead j hj)
    · split
      · rename_i hk
        subst hk
        exact List.pairwise_cons.mpr ⟨hhead, htail⟩
      · rename_i hge hne
        refine List.pairwise_cons.mpr ⟨fun j hj => ?_, ih htail⟩
        rcases mem_keys_put.mp hj with rfl | hj
        · exact lt_of_le_of_ne (not_lt.mp hge) (Ne.symm hne)
        · exact hhead j hj

theorem Sorted.nodup {cs : List (K × α)} (h : Sorted cs) : (cs.map Prod.fst).Nodup :=
  h.imp (fun hlt => ne_of_lt hlt)

theorem mem_keys_iff_lookup {k : K} {cs : List (K × α)} :
    k ∈ cs.map Prod.fst ↔ (cs.lookup k).isSome := by
  simp

theorem mem_of_lookup {k : K} {a : α} {cs : List (K × α)} (h : cs.lookup k = some a) :
    (k, a) ∈ cs := by
  obtain ⟨l₁, l₂, rfl, _⟩ := List.lookup_eq_some_iff.mp h
  simp

end Put

/-! ## Reads and writes -/

/-- The node at a path. -/
def Node.get : Node K V → List K → Option (Node K V)
  | n, [] => some n
  | n, k :: p => (n.children.lookup k).bind (·.get p)

/-- The tree with `v` at a path, in place of what stood there. -/
def Node.set : Node K V → List K → Node K V → Node K V
  | _, [], v => v
  | n, k :: p, v => .dict (put k (((n.children.lookup k).getD .empty).set p v) n.children)

/-- The children at a path, in key order. -/
def Node.childrenAt (n : Node K V) (p : List K) : List (K × Node K V) :=
  ((n.get p).getD .empty).children

@[simp] theorem get_nil (n : Node K V) : n.get [] = some n := by simp [Node.get]

theorem get_cons (n : Node K V) (k : K) (p : List K) :
    n.get (k :: p) = (n.children.lookup k).bind (·.get p) := by simp [Node.get]

@[simp] theorem set_nil (n v : Node K V) : n.set [] v = v := by simp [Node.set]

theorem set_cons (n v : Node K V) (k : K) (p : List K) :
    n.set (k :: p) v =
      .dict (put k (((n.children.lookup k).getD .empty).set p v) n.children) := by
  simp [Node.set]

@[simp] theorem get_empty_cons (k : K) (p : List K) : (Node.empty : Node K V).get (k :: p) = none := by
  simp [get_cons, Node.empty]

theorem get_append (n : Node K V) (p q : List K) : n.get (p ++ q) = (n.get p).bind (·.get q) := by
  induction p generalizing n with
  | nil => simp
  | cons k p ih =>
    simp only [List.cons_append, get_cons]
    cases n.children.lookup k with
    | none => rfl
    | some m => simp [ih]

/-- What stands below a written path is what was written. -/
theorem get_set_append (n v : Node K V) (p q : List K) : (n.set p v).get (p ++ q) = v.get q := by
  induction p generalizing n with
  | nil => simp
  | cons k p ih => simp [set_cons, get_cons, ih]

@[simp] theorem get_set_self (n v : Node K V) (p : List K) : (n.set p v).get p = some v := by
  simpa using get_set_append n v p []

/-- A node above a written path takes the write at the rest of the path. -/
theorem get_set_above (n v : Node K V) (q r : List K) :
    (n.set (q ++ r) v).get q = some (((n.get q).getD .empty).set r v) := by
  induction q generalizing n with
  | nil => simp
  | cons k q ih =>
    simp only [List.cons_append, set_cons, get_cons, Node.children_dict, lookup_put_self,
      Option.bind_some, ih]
    cases n.children.lookup k with
    | some m => rfl
    | none =>
      cases q with
      | nil => rfl
      | cons j q => simp

/-- A write leaves every path alone that is apart from its own. -/
theorem get_set_apart (n v : Node K V) {p q : List K} (h : Apart p q) :
    (n.set p v).get q = n.get q := by
  induction p generalizing n q with
  | nil => exact absurd List.nil_prefix h.1
  | cons k p ih =>
    cases q with
    | nil => exact absurd List.nil_prefix h.2
    | cons j q =>
      simp only [set_cons, get_cons, Node.children_dict]
      by_cases hjk : j = k
      · subst hjk
        have hpq : Apart p q := by simpa [Apart, List.cons_prefix_cons] using h
        rw [lookup_put_self, Option.bind_some, ih _ hpq]
        cases n.children.lookup j with
        | some m => rfl
        | none =>
          cases q with
          | nil => exact absurd List.nil_prefix hpq.2
          | cons i q => simp
      · rw [lookup_put_of_ne _ _ hjk]

/-- Two paths are apart, or one leads through the other. -/
theorem path_cases (p q : List K) :
    Apart p q ∨ (∃ r, q = p ++ r) ∨ ∃ k r, p = q ++ k :: r := by
  by_cases hpq : p <+: q
  · obtain ⟨r, hr⟩ := hpq
    exact Or.inr (Or.inl ⟨r, hr.symm⟩)
  · by_cases hqp : q <+: p
    · obtain ⟨r, hr⟩ := hqp
      cases r with
      | nil => exact absurd ⟨[], by simpa using hr.symm⟩ hpq
      | cons k r => exact Or.inr (Or.inr ⟨k, r, hr.symm⟩)
    · exact Or.inl ⟨hpq, hqp⟩

/-- What a write leaves at `q` depends on the tree only through what stood at `q`. -/
theorem get_set_congr {n n' : Node K V} {q : List K} (v : Node K V) (p : List K)
    (h : n.get q = n'.get q) : (n.set p v).get q = (n'.set p v).get q := by
  rcases path_cases p q with hap | ⟨r, rfl⟩ | ⟨k, r, rfl⟩
  · rw [get_set_apart _ _ hap, get_set_apart _ _ hap, h]
  · rw [get_set_append, get_set_append]
  · rw [get_set_above, get_set_above, h]

/-! ## Children after a write -/

theorem childrenAt_congr {n n' : Node K V} {q : List K} (h : n.get q = n'.get q) :
    n.childrenAt q = n'.childrenAt q := by
  simp [Node.childrenAt, h]

theorem childrenAt_set_apart (n v : Node K V) {p q : List K} (h : Apart p q) :
    (n.set p v).childrenAt q = n.childrenAt q :=
  childrenAt_congr (get_set_apart n v h)

/-- A write at a child of `q` puts the child in its place. -/
theorem childrenAt_set_child (n v : Node K V) (q : List K) (k : K) :
    (n.set (q ++ [k]) v).childrenAt q = put k v (n.childrenAt q) := by
  simp [Node.childrenAt, get_set_above, set_cons]

theorem lookup_childrenAt (n : Node K V) (q : List K) (k : K) :
    (n.childrenAt q).lookup k = n.get (q ++ [k]) := by
  rw [get_append]
  unfold Node.childrenAt
  cases n.get q with
  | none => simp [Node.empty]
  | some m => simp [get_cons]

theorem childrenAt_append (n : Node K V) (p q : List K) :
    n.childrenAt (p ++ q) = ((n.get p).getD .empty).childrenAt q := by
  unfold Node.childrenAt
  rw [get_append]
  cases n.get p with
  | some m => rfl
  | none =>
    cases q with
    | nil => rfl
    | cons k q => simp

/-! ## Writes at fresh paths -/

/-- A write at a path where nothing stood removes no node. -/
theorem isSome_get_set_of_fresh {n v : Node K V} {p q : List K} (hp : n.get p = none)
    (hq : (n.get q).isSome) : ((n.set p v).get q).isSome := by
  rcases path_cases p q with hap | ⟨r, rfl⟩ | ⟨k, r, rfl⟩
  · rwa [get_set_apart _ _ hap]
  · simp [get_append, hp] at hq
  · simp [get_set_above]

/-- A node with children keeps being one. -/
theorem get_set_dict_of_fresh {n v : Node K V} {p q : List K} (hp : n.get p = none)
    (hq : ∃ cs, n.get q = some (.dict cs)) : ∃ cs, (n.set p v).get q = some (.dict cs) := by
  rcases path_cases p q with hap | ⟨r, rfl⟩ | ⟨k, r, rfl⟩
  · rwa [get_set_apart _ _ hap]
  · obtain ⟨cs, hcs⟩ := hq
    simp [get_append, hp] at hcs
  · exact ⟨_, by rw [get_set_above, set_cons]⟩

/-- A key that neither the tree, nor the path, nor the value has is not in the tree after the write. -/
theorem get_set_unused {n v : Node K V} {p : List K} {k : K} (hn : ∀ q, n.get (q ++ [k]) = none)
    (hv : ∀ q, v.get (q ++ [k]) = none) (hp : k ∉ p) (q : List K) :
    (n.set p v).get (q ++ [k]) = none := by
  rcases path_cases p (q ++ [k]) with hap | ⟨r, hr⟩ | ⟨j, r, rfl⟩
  · rw [get_set_apart _ _ hap]
    exact hn q
  · rw [hr, get_set_append]
    cases r using List.reverseRecOn with
    | nil => exact absurd (by rw [List.append_nil] at hr; simp [← hr]) hp
    | append_singleton t i =>
      rw [← List.append_assoc] at hr
      obtain rfl : k = i := by simpa using (List.append_inj' hr rfl).2
      exact hv t
  · exact absurd (by simp) hp

/-! ## Changes of the children -/

/-- The children of `new` whose keys `old` has not. -/
def addedChildren {α : Type} (old new : List (K × α)) : List (K × α) :=
  new.filter fun c => decide (c.1 ∉ old.map Prod.fst)

theorem addedChildren_self {α : Type} (cs : List (K × α)) : addedChildren cs cs = [] := by
  rw [addedChildren, List.filter_eq_nil_iff]
  intro c hc
  simp only [decide_not, Bool.not_eq_eq_eq_not, Bool.not_true, decide_eq_false_iff_not, not_not]
  exact List.mem_map_of_mem hc

theorem mem_addedChildren {α : Type} {old new : List (K × α)} {c : K × α} :
    c ∈ addedChildren old new ↔ c ∈ new ∧ c.1 ∉ old.map Prod.fst := by
  simp [addedChildren]

end PathTree
