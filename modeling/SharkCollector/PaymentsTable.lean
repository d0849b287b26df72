-- The payments list (PaymentsTableViewController). Its observer appends one
-- payment for each snapshot, and traps on everything but a flat record with the
-- two keys of a payment.
import SharkCollector.Records

namespace SharkCollector

open PathTree

/-! ## The controller -/

structure PaymentsTableViewController where
  borrowerAtIndex : Option Borrower
  payments : List Payment := []
deriving DecidableEq, Repr

namespace PaymentsTableViewController

variable (vc : PaymentsTableViewController)

def numberOfRowsInSection : Nat := vc.payments.length

/-- The texts of the two labels of a cell. -/
def cellForRowAt (row : Nat) : Except Fault (String × String) := do
  let payment ← subscript vc.payments row
  return (payment.amountPaid, payment.dateOfPayment)

/-- The observer of `retrievePayments`. -/
def childAdded (snapshot : Snapshot) : Except Fault PaymentsTableViewController := do
  let payment ← paymentAdded snapshot
  return { vc with payments := vc.payments ++ [payment] }

/-- `viewDidLoad` attaches the observer, which is called with every child that exists, in key order. -/
def viewDidLoad (currentUser : Option Uid) (db : Database) :
    Except Fault PaymentsTableViewController := do
  let paymentDB ← retrievePayments currentUser vc.borrowerAtIndex
  (db.childrenAt paymentDB).foldlM childAdded vc

/-- A snapshot that is a payment adds it to the list. -/
theorem childAdded_eq_ok {vc' : PaymentsTableViewController} {snapshot : Snapshot} :
    vc.childAdded snapshot = .ok vc' ↔ ∃ payment, paymentAdded snapshot = .ok payment ∧
      vc' = { vc with payments := vc.payments ++ [payment] } := by
  rcases hadded : paymentAdded snapshot with fault | payment
  · simp [childAdded, hadded, bind, Except.bind]
  · simp [childAdded, hadded, bind, Except.bind, pure, Except.pure, eq_comm]

/-- The observer goes through a list of snapshots exactly when each of them is
a payment, and then the list holds these payments in the order of the snapshots. -/
theorem foldlM_childAdded_eq_ok (snapshots : List Snapshot) (vc' : PaymentsTableViewController) :
    snapshots.foldlM childAdded vc = .ok vc' ↔
      ∃ payments : List Payment, snapshots.map paymentAdded = payments.map .ok ∧
        vc' = { vc with payments := vc.payments ++ payments } := by
  induction snapshots generalizing vc with
  | nil => simp [pure, Except.pure, eq_comm]
  | cons s snapshots ih =>
    rw [List.foldlM_cons]
    rcases hs : paymentAdded s with e | p
    · simp only [childAdded, hs, bind, Except.bind, List.map_cons, reduceCtorEq, false_iff]
      rintro ⟨payments, h, -⟩
      cases payments <;> simp at h
    · simp only [childAdded, hs, bind, Except.bind, pure, Except.pure, ih, List.map_cons]
      constructor
      · rintro ⟨payments, h, rfl⟩
        exact ⟨p :: payments, by simp [h], by simp⟩
      · rintro ⟨payments, h, rfl⟩
        cases payments with
        | nil => simp at h
        | cons q payments =>
          simp only [List.map_cons, List.cons.injEq, Except.ok.injEq] at h
          obtain ⟨rfl, h⟩ := h
          exact ⟨payments, h, by simp⟩

/-- Every row of the list shows its payment. -/
theorem cellForRowAt_of_lt {row : Nat} (h : row < vc.numberOfRowsInSection) :
    vc.cellForRowAt row =
      .ok ((vc.payments.get ⟨row, h⟩).amountPaid, (vc.payments.get ⟨row, h⟩).dateOfPayment) := by
  have hrow : vc.payments[row]? = some (vc.payments.get ⟨row, h⟩) := List.getElem?_eq_getElem h
  rw [cellForRowAt, subscript_eq_ok.mpr hrow]
  rfl

end PaymentsTableViewController

/-! ## Flat records -/

/-- A dictionary of strings with the two keys of a payment. -/
def FlatRecord (v : Database) : Prop :=
  ∃ cs, v = .dict cs ∧ (∀ c ∈ cs, ∃ s, c.2 = .leaf s) ∧
    ⟨"Amount paid"⟩ ∈ cs.map Prod.fst ∧ ⟨"Date"⟩ ∈ cs.map Prod.fst

theorem flatRecord_paymentRecord (amount date : String) : FlatRecord (paymentRecord amount date) := by
  refine ⟨_, paymentRecord_eq amount date, ?_, by simp, by simp⟩
  intro c hc
  simp only [List.mem_cons, List.not_mem_nil, or_false] at hc
  rcases hc with rfl | rfl
  · exact ⟨amount, rfl⟩
  · exact ⟨date, rfl⟩

theorem mapM_stringField_ok {cs : List Snapshot} {d : List (String × String)}
    (h : cs.mapM stringField = .ok d) :
    (∀ c ∈ cs, ∃ s, c.2 = .leaf s) ∧ d.map Prod.fst = cs.map (·.1.text) := by
  induction cs generalizing d with
  | nil =>
    simp only [List.mapM_nil, pure, Except.pure, Except.ok.injEq] at h
    simp [← h]
  | cons c cs ih =>
    obtain ⟨k, v⟩ := c
    cases v with
    | dict _ => simp [List.mapM_cons, stringField, bind, Except.bind] at h
    | leaf s =>
      rcases hrest : cs.mapM stringField with _ | d'
      · simp [List.mapM_cons, stringField, hrest, bind, Except.bind] at h
      · simp only [List.mapM_cons, stringField, hrest, bind, Except.bind, pure, Except.pure,
          Except.ok.injEq] at h
        obtain ⟨hleaf, hkeys⟩ := ih hrest
        subst h
        simp only [List.forall_mem_cons, List.map_cons, hkeys, and_true]
        exact ⟨⟨s, rfl⟩, hleaf⟩

theorem mapM_stringField_of_leaves {cs : List Snapshot} (h : ∀ c ∈ cs, ∃ s, c.2 = .leaf s) :
    ∃ d, cs.mapM stringField = .ok d := by
  induction cs with
  | nil => exact ⟨[], rfl⟩
  | cons c cs ih =>
    obtain ⟨k, v⟩ := c
    obtain ⟨⟨s, hs⟩, hrest⟩ := List.forall_mem_cons.mp h
    obtain ⟨d, hd⟩ := ih hrest
    simp only at hs
    subst hs
    exact ⟨(k.text, s) :: d, by
      simp [List.mapM_cons, stringField, hd, bind, Except.bind, pure, Except.pure]⟩

theorem lookup_isSome_of_keys {d : List (String × String)} {cs : List Snapshot}
    (h : d.map Prod.fst = cs.map (·.1.text)) (s : String) :
    (d.lookup s).isSome ↔ (⟨s⟩ : Key) ∈ cs.map Prod.fst := by
  have hd : (d.lookup s).isSome ↔ s ∈ d.map Prod.fst := by simp
  rw [hd, h, List.mem_map, List.mem_map]
  refine exists_congr fun c => and_congr_right fun _ => ?_
  exact ⟨fun hc => by rw [← hc], fun hc => by rw [hc]⟩

/-- The forced cast and the two forced unwraps of the observer go through
exactly on flat records. -/
theorem paymentAdded_ok_iff (k : Key) (v : Database) :
    (∃ p, paymentAdded (k, v) = .ok p) ↔ FlatRecord v := by
  constructor
  · rintro ⟨p, hp⟩
    cases v with
    | leaf s => simp [paymentAdded, asDictionary, bind, Except.bind] at hp
    | dict cs =>
      rcases hd : cs.mapM stringField with _ | d
      · simp [paymentAdded, asDictionary, hd, bind, Except.bind] at hp
      · obtain ⟨hleaf, hkeys⟩ := mapM_stringField_ok hd
        simp only [paymentAdded, asDictionary, hd, bind, Except.bind] at hp
        refine ⟨cs, rfl, hleaf, ?_, ?_⟩
        · rw [← lookup_isSome_of_keys hkeys]
          rcases ha : d.lookup "Amount paid" with _ | a
          · simp [ha] at hp
          · rfl
        · rw [← lookup_isSome_of_keys hkeys]
          rcases ha : d.lookup "Amount paid" with _ | a
          · simp [ha] at hp
          · rcases hb : d.lookup "Date" with _ | b
            · simp [ha, hb] at hp
            · rfl
  · rintro ⟨cs, rfl, hleaf, hamount, hdate⟩
    obtain ⟨d, hd⟩ := mapM_stringField_of_leaves hleaf
    obtain ⟨_, hkeys⟩ := mapM_stringField_ok hd
    obtain ⟨a, ha⟩ := Option.isSome_iff_exists.mp ((lookup_isSome_of_keys hkeys _).mpr hamount)
    obtain ⟨b, hb⟩ := Option.isSome_iff_exists.mp ((lookup_isSome_of_keys hkeys _).mpr hdate)
    refine ⟨⟨a, b⟩, ?_⟩
    simp [paymentAdded, asDictionary, hd, ha, hb, bind, Except.bind, pure, Except.pure]

/-- Below a flat record there are only its strings. -/
theorem FlatRecord.get_ne_dict {v : Database} (h : FlatRecord v) (k : Key) (r : List Key)
    (cs : List Snapshot) : v.get (k :: r) ≠ some (.dict cs) := by
  obtain ⟨ds, rfl, hleaf, -⟩ := h
  rw [get_cons]
  rcases hk : ds.lookup k with _ | w
  · simp [hk]
  · obtain ⟨s, hs⟩ := hleaf _ (mem_of_lookup hk)
    simp only at hs
    subst hs
    cases r with
    | nil => simp [hk]
    | cons j r => simp [hk, get_cons]

theorem FlatRecord.childrenAt_cons {v : Database} (h : FlatRecord v) (k : Key) (r : List Key) :
    v.childrenAt (k :: r) = [] := by
  unfold Node.childrenAt
  rcases hg : v.get (k :: r) with _ | (s | cs)
  · rfl
  · rfl
  · exact absurd hg (h.get_ne_dict k r cs)

end SharkCollector
