-- The tree of payments. A payment is filed at a path made of the borrower's
-- name, so a name with a slash files its payments below another name's node,
-- and the reader of that node traps. The laws say exactly which names of a run
-- keep every node readable.
import SharkCollector.PaymentsTable
import SharkCollector.ProperRuns

namespace SharkCollector

open PathTree Runs LedgerCall

/-! ## Nodes that stay readable -/

/-- No payment of the run is filed strictly below `node`'s children, and none
is filed at `node` itself, so that `node` would be a record. -/
def NoCrossing (node : Reference) (run : List LedgerCall) : Prop :=
  ∀ u b amount date k, .sendPayment u b amount date k ∈ run →
    ¬ (node <+: paymentsNode u b.name ∧ node ≠ paymentsNode u b.name) ∧
      node ≠ paymentsNode u b.name ++ [k]

/-- The payment that a call files directly at `node`, with its key. -/
def paymentAt (node : Reference) : LedgerCall → Option Snapshot
  | .sendBorrower .. => none
  | .sendPayment u b amount date k =>
    if paymentsNode u b.name = node then some (k, paymentRecord amount date) else none

/-- The payments that a run files directly at `node`, in the order of the calls. -/
def paymentsAt (node : Reference) (run : List LedgerCall) : List Snapshot :=
  run.filterMap (paymentAt node)

/-- The children that a list of snapshots makes, in key order. -/
def inKeyOrder (cs : List Snapshot) : List Snapshot := cs.foldl (fun ds c => put c.1 c.2 ds) []

theorem inKeyOrder_snoc (cs : List Snapshot) (c : Snapshot) :
    inKeyOrder (cs ++ [c]) = put c.1 c.2 (inKeyOrder cs) := by
  simp [inKeyOrder, List.foldl_append]

theorem mem_of_mem_inKeyOrder {cs : List Snapshot} {c : Snapshot} (h : c ∈ inKeyOrder cs) : c ∈ cs := by
  induction cs using List.reverseRecOn with
  | nil => simp [inKeyOrder] at h
  | append_singleton cs d ih =>
    rw [inKeyOrder_snoc] at h
    rcases mem_put h with rfl | h
    · simp
    · exact List.mem_append_left _ (ih h)

/-- A call that files nothing at `node` and does not cross it leaves its children alone. -/
theorem childrenAt_apply_of_noCrossing {db : Database} {call : LedgerCall} {r : List Key}
    (hcall : Proper db call) (hcross : NoCrossing (⟨"Payments"⟩ :: r) [call])
    (hat : paymentAt (⟨"Payments"⟩ :: r) call = none) :
    (apply db call).childrenAt (⟨"Payments"⟩ :: r) = db.childrenAt (⟨"Payments"⟩ :: r) := by
  cases call with
  | sendBorrower u name debt k =>
    rw [apply_sendBorrower, childrenAt_set_apart]
    exact apart_cons_of_ne _ _ (by decide)
  | sendPayment u b amount date k =>
    generalize hnode : (⟨"Payments"⟩ :: r : Reference) = node at *
    obtain ⟨habove, hself⟩ := hcross u b amount date k (by simp)
    have hne : paymentsNode u b.name ≠ node := by simpa [paymentAt] using hat
    rw [apply_sendPayment _ _ _ _ _ _ hcall.legal]
    rcases path_cases (paymentsNode u b.name ++ [k]) node with hap | ⟨s, hs⟩ | ⟨j, s, hs⟩
    · exact childrenAt_set_apart _ _ hap
    · cases s with
      | nil => exact absurd (by simpa using hs) hself
      | cons j s =>
        -- The node lies inside the new record. Nothing stood there before, and nothing does now.
        have hbefore : db.childrenAt node = [] := by
          have hnone : db.get node = none := by
            have hunused : db.get (paymentsNode u b.name ++ [k]) = none := hcall.location_unused
            rw [hs, get_append, hunused]
            rfl
          simp [Node.childrenAt, hnone, Node.empty]
        rw [hbefore, hs, childrenAt_append, get_set_self]
        exact (flatRecord_paymentRecord amount date).childrenAt_cons j s
    · exfalso
      apply habove
      refine ⟨?_, hne.symm⟩
      have hpre : node <+: paymentsNode u b.name ++ [k] := ⟨j :: s, hs.symm⟩
      rcases List.prefix_concat_iff.mp hpre with heq | hpre
      · exact absurd heq hself
      · exact hpre

/-- At a node that no payment crosses stand exactly the payments filed at it, in key order. -/
theorem childrenAt_of_noCrossing {run : List LedgerCall} {r : List Key} (h : ProperRun run)
    (hcross : NoCrossing (⟨"Payments"⟩ :: r) run) :
    (ledger run).childrenAt (⟨"Payments"⟩ :: r) = inKeyOrder (paymentsAt (⟨"Payments"⟩ :: r) run) := by
  induction run using List.reverseRecOn with
  | nil => simp [ledger, paymentsAt, inKeyOrder, Node.childrenAt, Node.empty, get_cons]
  | append_singleton run call ih =>
    obtain ⟨hrun, hcall⟩ := (each_snoc _ _ _).mp h
    have hbefore := ih hrun fun u b amount date k hmem =>
      hcross u b amount date k (List.mem_append_left _ hmem)
    have hone : NoCrossing (⟨"Payments"⟩ :: r) [call] := fun u b amount date k hmem =>
      hcross u b amount date k (List.mem_append_right _ hmem)
    rw [ledger, exec_snoc, paymentsAt, List.filterMap_append]
    rw [ledger, paymentsAt] at hbefore
    rcases hat : paymentAt (⟨"Payments"⟩ :: r) call with _ | c
    · rw [childrenAt_apply_of_noCrossing hcall hone hat, hbefore]
      simp [hat]
    · cases call with
      | sendBorrower u name debt k => simp [paymentAt] at hat
      | sendPayment u b amount date k =>
        simp only [paymentAt, Option.ite_none_right_eq_some, Option.some.injEq] at hat
        obtain ⟨hnode, rfl⟩ := hat
        rw [apply_sendPayment _ _ _ _ _ _ hcall.legal, hnode, childrenAt_set_child, hbefore]
        simp [paymentAt, hnode, inKeyOrder_snoc]

theorem flatRecord_of_noCrossing {run : List LedgerCall} {r : List Key} (h : ProperRun run)
    (hcross : NoCrossing (⟨"Payments"⟩ :: r) run) :
    ∀ c ∈ (ledger run).childrenAt (⟨"Payments"⟩ :: r), FlatRecord c.2 := by
  intro c hc
  rw [childrenAt_of_noCrossing h hcross] at hc
  obtain ⟨call, -, hat⟩ := List.mem_filterMap.mp (mem_of_mem_inKeyOrder hc)
  cases call with
  | sendBorrower u name debt k => simp [paymentAt] at hat
  | sendPayment u b amount date k =>
    simp only [paymentAt, Option.ite_none_right_eq_some, Option.some.injEq] at hat
    rw [← hat.2]
    exact flatRecord_paymentRecord amount date

/-! ## Nodes that become unreadable -/

/-- A payment filed strictly below `node` makes one of its children deeper than a record. -/
theorem not_flat_of_below {run : List LedgerCall} (h : ProperRun run) {u : Uid} {b : Borrower}
    {amount date : String} {k : Key} (hcall : .sendPayment u b amount date k ∈ run)
    {node : Reference} {j : Key} {r : List Key} (hnode : paymentsNode u b.name = node ++ j :: r) :
    ∃ c ∈ (ledger run).childrenAt node, ¬ FlatRecord c.2 := by
  obtain ⟨cs, hget⟩ := h.get_payment hcall
  have hpath : paymentsNode u b.name ++ [k] = (node ++ [j]) ++ (r ++ [k]) := by simp [hnode]
  rw [hpath, get_append] at hget
  rcases hchild : (ledger run).get (node ++ [j]) with _ | v
  · simp [hchild] at hget
  · rw [hchild, Option.bind_some] at hget
    rw [← lookup_childrenAt] at hchild
    refine ⟨(j, v), mem_of_lookup hchild, fun hflat => ?_⟩
    cases r with
    | nil => exact hflat.get_ne_dict k [] cs hget
    | cons i r => exact hflat.get_ne_dict i (r ++ [k]) cs hget

/-- No string ever stands right below the amount of a record. -/
def NothingBelowAmount (p : Reference) (db : Database) : Prop :=
  (db.get (p ++ [⟨"Amount paid"⟩])).isSome ∧
    ∀ j s, db.get (p ++ [⟨"Amount paid"⟩] ++ [j]) ≠ some (.leaf s)

theorem nothingBelowAmount_apply {p : Reference} {db : Database} {call : LedgerCall}
    (h : NothingBelowAmount p db) (hcall : Proper db call) :
    NothingBelowAmount p (apply db call) := by
  have hunused := hcall.location_unused
  rw [hcall.apply_eq]
  refine ⟨isSome_get_set_of_fresh hunused h.1, fun j s hget => ?_⟩
  rcases path_cases call.location (p ++ [⟨"Amount paid"⟩] ++ [j]) with hap | ⟨r, hr⟩ | ⟨i, r, hr⟩
  · rw [get_set_apart _ _ hap] at hget
    exact h.2 j s hget
  · -- The location is above the string, and not above the amount, which stands already.
    have hpre : call.location <+: p ++ [⟨"Amount paid"⟩] ++ [j] := ⟨r, hr.symm⟩
    rcases List.prefix_concat_iff.mp hpre with heq | ⟨t, ht⟩
    · rw [← heq, get_set_self, Option.some.injEq] at hget
      cases call with
      | sendBorrower u name debt k => rw [LedgerCall.record, borrowerRecord_eq] at hget; cases hget
      | sendPayment u b amount date k => rw [LedgerCall.record, paymentRecord_eq] at hget; cases hget
    · have hsome := h.1
      rw [← ht, get_append, hunused] at hsome
      cases hsome
  · rw [hr, get_set_above, set_cons] at hget
    cases hget

/-- A payment filed at `node` itself makes `node` a record, whose children are no records. -/
theorem not_flat_of_self {run : List LedgerCall} (h : ProperRun run) {u : Uid} {b : Borrower}
    {amount date : String} {k : Key} (hcall : .sendPayment u b amount date k ∈ run) :
    ∃ c ∈ (ledger run).childrenAt (paymentsNode u b.name ++ [k]), ¬ FlatRecord c.2 := by
  obtain ⟨before, after, -, hproper, hafter, hledger⟩ := h.split hcall
  have hstart : NothingBelowAmount (paymentsNode u b.name ++ [k])
      (apply (ledger before) (.sendPayment u b amount date k)) := by
    rw [apply_sendPayment _ _ _ _ _ _ hproper.legal]
    refine ⟨?_, fun j s => ?_⟩
    · rw [get_set_append, paymentRecord_eq]
      simp [get_cons]
    · rw [List.append_assoc, get_set_append, paymentRecord_eq]
      simp [get_cons]
  have hend : NothingBelowAmount (paymentsNode u b.name ++ [k]) (ledger run) := by
    rw [hledger]
    exact exec_invariant hstart (fun db call hI hC => nothingBelowAmount_apply hI hC) hafter
  obtain ⟨v, hv⟩ := Option.isSome_iff_exists.mp hend.1
  have hlookup := hv
  rw [← lookup_childrenAt] at hlookup
  refine ⟨(⟨"Amount paid"⟩, v), mem_of_lookup hlookup, ?_⟩
  rintro ⟨cs, hcs, hleaf, hamount, -⟩
  simp only at hcs
  subst hcs
  obtain ⟨w, hw⟩ := Option.isSome_iff_exists.mp (mem_keys_iff_lookup.mp hamount)
  obtain ⟨s, hs⟩ := hleaf _ (mem_of_lookup hw)
  simp only at hs
  subst hs
  apply hend.2 ⟨"Amount paid"⟩ s
  rw [get_append, hv]
  simp [get_cons, hw]

theorem noCrossing_of_flatRecord {run : List LedgerCall} (h : ProperRun run) {node : Reference}
    (hflat : ∀ c ∈ (ledger run).childrenAt node, FlatRecord c.2) : NoCrossing node run := by
  intro u b amount date k hcall
  refine ⟨?_, ?_⟩
  · rintro ⟨⟨r, hr⟩, hne⟩
    cases r with
    | nil => exact hne (by simpa using hr)
    | cons j r =>
      obtain ⟨c, hc, hnot⟩ := not_flat_of_below h hcall hr.symm
      exact hnot (hflat c hc)
  · rintro rfl
    obtain ⟨c, hc, hnot⟩ := not_flat_of_self h hcall
    exact hnot (hflat c hc)

/-! ## Names that keep every node readable -/

/-- A payment under the key `k` through the name `m` does not cross the node of
the name `n`: `m` is no proper extension of `n`, and `n` does not point at the payment. -/
def KeepsOutOf (n m : String) (k : Key) : Prop :=
  ¬ (components n <+: components m ∧ components n ≠ components m) ∧
    components n ≠ components m ++ [k]

instance (n m : String) (k : Key) : Decidable (KeepsOutOf n m k) := inferInstanceAs (Decidable (_ ∧ _))

/-- No payment of an account crosses the node of a name that it has stored. -/
def NamesApart (run : List LedgerCall) : Prop :=
  ∀ u n debt ref, .sendBorrower u n debt ref ∈ run →
    ∀ c amount date k, .sendPayment u c amount date k ∈ run → KeepsOutOf n c.name k

theorem noCrossing_paymentsNode_iff (u : Uid) (n : String) (run : List LedgerCall) :
    NoCrossing (paymentsNode u n) run ↔
      ∀ c amount date k, .sendPayment u c amount date k ∈ run → KeepsOutOf n c.name k := by
  constructor
  · intro h c amount date k hcall
    simpa [paymentsNode, KeepsOutOf] using h u c amount date k hcall
  · intro h v c amount date k hcall
    by_cases hv : v = u
    · subst hv
      simpa [paymentsNode, KeepsOutOf] using h c amount date k hcall
    · have hkey : u.key ≠ v.key := fun he => hv (Uid.key_injective he).symm
      simp [paymentsNode, hkey]

/-- What an observer is called with stood in the database after some of the calls. -/
theorem mem_addedDuring {node : Reference} {calls : List LedgerCall} {db : Database} {s : Snapshot}
    (h : s ∈ addedDuring node db calls) :
    ∃ some_calls, some_calls <+: calls ∧ s ∈ (exec apply db some_calls).childrenAt node := by
  induction calls generalizing db with
  | nil => simp [addedDuring] at h
  | cons call calls ih =>
    rw [addedDuring, List.mem_append] at h
    rcases h with h | h
    · exact ⟨[call], ⟨calls, rfl⟩, (mem_addedChildren.mp h).1⟩
    · obtain ⟨some_calls, hpre, hs⟩ := ih h
      exact ⟨call :: some_calls, List.cons_prefix_cons.mpr ⟨rfl, hpre⟩, hs⟩

theorem mem_snapshots {node : Reference} {before after : List LedgerCall} {s : Snapshot}
    (h : s ∈ snapshots node before after) :
    ∃ run, run <+: before ++ after ∧ s ∈ (ledger run).childrenAt node := by
  rw [snapshots, List.mem_append] at h
  rcases h with h | h
  · exact ⟨before, List.prefix_append _ _, h⟩
  · obtain ⟨some_calls, hpre, hs⟩ := mem_addedDuring h
    refine ⟨before ++ some_calls, (List.prefix_append_right_inj before).mpr hpre, ?_⟩
    rw [ledger, exec_append]
    exact hs

theorem ProperRun.of_isPrefix {run run' : List LedgerCall} (h : ProperRun run')
    (hpre : run <+: run') : ProperRun run := by
  obtain ⟨rest, rfl⟩ := hpre
  exact ((each_append _ _ _).mp h).1

theorem NoCrossing.of_isPrefix {node : Reference} {run run' : List LedgerCall}
    (h : NoCrossing node run') (hpre : run <+: run') : NoCrossing node run :=
  fun u b amount date k hcall => h u b amount date k (hpre.subset hcall)

/-- For every borrower that an account has stored, every child of its node is a
flat record with both keys, and no snapshot that an observer of the node gets,
at its start or later, makes it trap. -/
def PaymentsReadable (run : List LedgerCall) : Prop :=
  ∀ u b, Stored u (ledger run) b →
    (∀ c ∈ (ledger run).childrenAt (paymentsNode u b.name), FlatRecord c.2) ∧
    ∀ before after, run = before ++ after →
      ∀ s ∈ snapshots (paymentsNode u b.name) before after, ∃ p, paymentAdded s = .ok p

theorem paymentsReadable_of_noCrossing {run : List LedgerCall} (h : ProperRun run)
    (hcross : ∀ u b, Stored u (ledger run) b → NoCrossing (paymentsNode u b.name) run) :
    PaymentsReadable run := by
  intro u b hb
  refine ⟨flatRecord_of_noCrossing h (hcross u b hb), ?_⟩
  rintro before after rfl s hs
  obtain ⟨run, hpre, hchild⟩ := mem_snapshots hs
  rw [paymentAdded_ok_iff]
  exact flatRecord_of_noCrossing (h.of_isPrefix hpre) ((hcross u b hb).of_isPrefix hpre) s hchild

/-- The payments of all stored borrowers stay readable exactly when no payment
goes through a name that crosses a stored one. -/
theorem payments_stay_readable_iff_the_names_are_apart (run : List LedgerCall) (h : ProperRun run) :
    PaymentsReadable run ↔ NamesApart run := by
  constructor
  · intro hread u n debt ref hborrower
    rw [← noCrossing_paymentsNode_iff]
    have hstored : Stored u (ledger run) ⟨ref, n, debt⟩ := (stored_iff h).mpr hborrower
    exact noCrossing_of_flatRecord h (hread u _ hstored).1
  · intro hapart
    apply paymentsReadable_of_noCrossing h
    intro u b hb
    rw [noCrossing_paymentsNode_iff]
    exact hapart u b.name b.debt b.ref ((stored_iff h).mp hb)

theorem a_payment_through_an_unrelated_name_stays_readable :
    PaymentsReadable [.sendBorrower alice "A/B" "10" ⟨"-K1"⟩, .sendBorrower alice "Ann" "20" ⟨"-K2"⟩,
      .sendPayment alice ⟨⟨"-K2"⟩, "Ann", "20"⟩ "5" "2017-10-10 16:58:34 +0000" ⟨"-K3"⟩] := by
  refine (payments_stay_readable_iff_the_names_are_apart _ ?_).mpr ?_
  · apply properRun_of_new_keys <;> decide
  · intro u n debt ref hborrower c amount date k hpayment
    simp only [List.mem_cons, LedgerCall.sendPayment.injEq, reduceCtorEq, List.not_mem_nil, or_false,
      false_or] at hpayment
    obtain ⟨rfl, rfl, -, -, rfl⟩ := hpayment
    simp only [List.mem_cons, LedgerCall.sendBorrower.injEq, reduceCtorEq, List.not_mem_nil,
      or_false] at hborrower
    rcases hborrower with ⟨-, rfl, -, -⟩ | ⟨-, rfl, -, -⟩
    · decide
    · decide

/-- The borrowers A and A/B, and a payment of A/B. -/
def crossingRun : List LedgerCall :=
  [.sendBorrower alice "A" "10" ⟨"-K1"⟩, .sendBorrower alice "A/B" "20" ⟨"-K2"⟩,
    .sendPayment alice ⟨⟨"-K2"⟩, "A/B", "20"⟩ "5" "2017-10-10 16:58:34 +0000" ⟨"-K3"⟩]

theorem properRun_crossingRun : ProperRun crossingRun := by
  apply properRun_of_new_keys <;> decide

/-- The payment is filed below the node of A, and the list of A traps at its start. -/
theorem a_payment_through_a_longer_name_is_unreadable :
    ProperRun crossingRun ∧ ¬ PaymentsReadable crossingRun := by
  refine ⟨properRun_crossingRun, fun hread => ?_⟩
  have hstored : Stored alice (ledger crossingRun) ⟨⟨"-K1"⟩, "A", "10"⟩ :=
    (stored_iff properRun_crossingRun).mpr (by decide)
  have htrap : (snapshots (paymentsNode alice "A") crossingRun []).map paymentAdded =
      [.error .badCast] := by decide
  obtain ⟨s, hs, he⟩ : ∃ s ∈ snapshots (paymentsNode alice "A") crossingRun [],
      paymentAdded s = .error .badCast := by
    rw [← List.mem_map, htrap]
    simp
  obtain ⟨p, hp⟩ := (hread alice _ hstored).2 crossingRun [] (by simp) s hs
  rw [he] at hp
  cases hp

end SharkCollector
