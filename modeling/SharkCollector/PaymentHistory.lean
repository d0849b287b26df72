-- The history of a borrower. Borrowers have keys of their own, and payments are
-- filed under names. The law says for which runs the list of every borrower
-- holds exactly the payments recorded through it, in order: those in which no
-- payment of another borrower goes through a name that leads to its node.
import SharkCollector.PaymentsTree

namespace SharkCollector

open PathTree Runs LedgerCall

/-! ## Runs on opened borrowers -/

/-- A proper call, and a payment goes through a borrower that is stored. -/
structure Opened (db : Database) (call : LedgerCall) : Prop where
  proper : Proper db call
  stored : ∀ u b amount date k, call = .sendPayment u b amount date k → Stored u db b

/-- Every payment of the run goes through an opened borrower, and the keys of
`childByAutoId` increase. -/
structure OpenedRun (run : List LedgerCall) : Prop where
  each : Each apply Opened Node.empty run
  increasing : (run.map LedgerCall.key).Pairwise (· < ·)

theorem OpenedRun.properRun {run : List LedgerCall} (h : OpenedRun run) : ProperRun run :=
  each_mono (fun _ _ hcall => hcall.proper) h.each

/-- The borrower that a payment goes through was sent in the same run. -/
theorem OpenedRun.sendBorrower_mem {run : List LedgerCall} (h : OpenedRun run) {u : Uid}
    {b : Borrower} {amount date : String} {k : Key} (hcall : .sendPayment u b amount date k ∈ run) :
    .sendBorrower u b.name b.debt b.ref ∈ run := by
  obtain ⟨before, after, rfl⟩ := List.append_of_mem hcall
  obtain ⟨hbefore, hopened, -⟩ := (each_append _ _ _).mp h.each
  have hproper : ProperRun before := each_mono (fun _ _ hcall => hcall.proper) hbefore
  have hstored := (stored_iff hproper).mp (hopened.stored u b amount date k rfl)
  exact List.mem_append_left _ hstored

/-- The key of a borrower determines its name. -/
theorem ProperRun.name_eq {run : List LedgerCall} (h : ProperRun run) {u : Uid}
    {name name' debt debt' : String} {ref : Key} (hcall : .sendBorrower u name debt ref ∈ run)
    (hcall' : .sendBorrower u name' debt' ref ∈ run) : name = name' := by
  have hrecord := (h.get_borrower hcall).symm.trans (h.get_borrower hcall')
  simp only [borrowerRecord_eq, Option.some.injEq, Node.dict.injEq, List.cons.injEq, Prod.mk.injEq,
    Node.leaf.injEq, true_and, and_true] at hrecord
  exact hrecord.2

/-! ## What is filed and what is recorded -/

/-- The payment that a call files at `node`. -/
def filedAt (node : Reference) : LedgerCall → Option Payment
  | .sendBorrower .. => none
  | .sendPayment v c amount date _ =>
    if paymentsNode v c.name = node then some ⟨amount, date⟩ else none

/-- The payment that a call records through the borrower `ref` of account `u`. -/
def recordedThrough (u : Uid) (ref : Key) : LedgerCall → Option Payment
  | .sendBorrower .. => none
  | .sendPayment v c amount date _ => if v = u ∧ c.ref = ref then some ⟨amount, date⟩ else none

theorem map_paymentAdded_paymentsAt (node : Reference) (run : List LedgerCall) :
    (paymentsAt node run).map paymentAdded = (run.filterMap (filedAt node)).map .ok := by
  rw [paymentsAt, List.map_filterMap, List.map_filterMap]
  apply List.filterMap_congr
  intro call _
  cases call with
  | sendBorrower u name debt k => rfl
  | sendPayment u b amount date k =>
    simp only [paymentAt, filedAt]
    split <;> simp

theorem keys_paymentsAt_sublist (node : Reference) (run : List LedgerCall) :
    ((paymentsAt node run).map Prod.fst).Sublist (run.map LedgerCall.key) := by
  induction run with
  | nil => simp [paymentsAt]
  | cons call run ih =>
    unfold paymentsAt
    rcases hat : paymentAt node call with _ | c
    · rw [List.filterMap_cons_none hat, List.map_cons]
      exact ih.cons _
    · rw [List.filterMap_cons_some hat, List.map_cons, List.map_cons]
      have hkey : c.1 = call.key := by
        cases call with
        | sendBorrower u name debt k => simp [paymentAt] at hat
        | sendPayment u b amount date k =>
          simp only [paymentAt, Option.ite_none_right_eq_some, Option.some.injEq] at hat
          rw [← hat.2]
          rfl
      rw [hkey]
      exact ih.cons_cons _

theorem inKeyOrder_of_increasing {cs : List Snapshot} (h : (cs.map Prod.fst).Pairwise (· < ·)) :
    inKeyOrder cs = cs := by
  induction cs using List.reverseRecOn with
  | nil => rfl
  | append_singleton cs c ih =>
    rw [List.map_append, List.pairwise_append] at h
    obtain ⟨hcs, -, hlt⟩ := h
    rw [inKeyOrder_snoc, ih hcs, put_of_forall_lt]
    intro j hj
    exact hlt j hj c.1 (by simp)

/-! ## Opening the list -/

/-- The list of a borrower whose node no payment crosses holds what is filed at the node, in order. -/
theorem viewDidLoad_of_noCrossing {run : List LedgerCall} (h : OpenedRun run) {u : Uid} {b : Borrower}
    (hlegal : IsPathString b.name) (hcross : NoCrossing (paymentsNode u b.name) run) :
    PaymentsTableViewController.viewDidLoad { borrowerAtIndex := some b } (some u) (ledger run) =
      .ok { borrowerAtIndex := some b, payments := run.filterMap (filedAt (paymentsNode u b.name)) } := by
  have hchildren : (ledger run).childrenAt (paymentsNode u b.name) =
      paymentsAt (paymentsNode u b.name) run := by
    rw [paymentsNode, childrenAt_of_noCrossing h.properRun hcross]
    apply inKeyOrder_of_increasing
    exact h.increasing.sublist (keys_paymentsAt_sublist _ _)
  simp only [PaymentsTableViewController.viewDidLoad, retrievePayments_ok u b hlegal, bind, Except.bind]
  rw [hchildren, PaymentsTableViewController.foldlM_childAdded_eq_ok]
  exact ⟨_, map_paymentAdded_paymentsAt _ _, by simp⟩

/-- A list that opens has a node that no payment crosses. -/
theorem noCrossing_of_viewDidLoad {run : List LedgerCall} (h : ProperRun run) {u : Uid} {b : Borrower}
    (hlegal : IsPathString b.name) {vc : PaymentsTableViewController}
    (hload : PaymentsTableViewController.viewDidLoad { borrowerAtIndex := some b } (some u)
      (ledger run) = .ok vc) : NoCrossing (paymentsNode u b.name) run := by
  simp only [PaymentsTableViewController.viewDidLoad, retrievePayments_ok u b hlegal, bind,
    Except.bind] at hload
  obtain ⟨payments, hpayments, -⟩ :=
    (PaymentsTableViewController.foldlM_childAdded_eq_ok _ _ _).mp hload
  apply noCrossing_of_flatRecord h
  intro c hc
  have hmem : paymentAdded c ∈ payments.map .ok := hpayments ▸ List.mem_map_of_mem hc
  obtain ⟨p, -, hp⟩ := List.mem_map.mp hmem
  exact (paymentAdded_ok_iff c.1 c.2).mp ⟨p, hp.symm⟩

/-! ## Every borrower has its own history -/

/-- The list of each stored borrower opens with the payments recorded through
it, in the order of the calls. -/
def OwnHistory (run : List LedgerCall) : Prop :=
  ∀ u b, Stored u (ledger run) b →
    PaymentsTableViewController.viewDidLoad { borrowerAtIndex := some b } (some u) (ledger run) =
      .ok { borrowerAtIndex := some b, payments := run.filterMap (recordedThrough u b.ref) }

/-- No payment goes through a name that leads to the node of another borrower of
the account: to this node, below it, or right above it with the payment's key as the last step. -/
def NamesSeparate (run : List LedgerCall) : Prop :=
  ∀ u n debt ref, .sendBorrower u n debt ref ∈ run →
    ∀ c amount date k, .sendPayment u c amount date k ∈ run → c.ref ≠ ref →
      ¬ components n <+: components c.name ∧ components n ≠ components c.name ++ [k]

/-- What is recorded through a stored borrower is filed at its node. -/
theorem filedAt_of_recordedThrough {run : List LedgerCall} (h : OpenedRun run) {u : Uid}
    {b : Borrower} (hb : .sendBorrower u b.name b.debt b.ref ∈ run) {call : LedgerCall}
    (hcall : call ∈ run) {p : Payment} (hp : recordedThrough u b.ref call = some p) :
    filedAt (paymentsNode u b.name) call = some p := by
  cases call with
  | sendBorrower v name debt k => simp [recordedThrough] at hp
  | sendPayment v c amount date k =>
    simp only [recordedThrough, Option.ite_none_right_eq_some, Option.some.injEq] at hp
    obtain ⟨⟨rfl, href⟩, rfl⟩ := hp
    have hc := h.sendBorrower_mem hcall
    rw [href] at hc
    rw [filedAt, if_pos (by rw [h.properRun.name_eq hc hb])]

theorem filterMap_sublist {f g : LedgerCall → Option Payment} {calls : List LedgerCall}
    (hfg : ∀ call ∈ calls, ∀ p, f call = some p → g call = some p) :
    (calls.filterMap f).Sublist (calls.filterMap g) := by
  induction calls with
  | nil => simp
  | cons call calls ih =>
    obtain ⟨hcall, hcalls⟩ := List.forall_mem_cons.mp hfg
    rcases hf : f call with _ | p
    · rw [List.filterMap_cons_none hf]
      exact (ih hcalls).trans ((List.sublist_cons_self call calls).filterMap g)
    · rw [List.filterMap_cons_some hf, List.filterMap_cons_some (hcall p hf)]
      exact (ih hcalls).cons_cons p

/-- Two ways to pick payments, one within the other, pick the same list only if they pick
from the same calls. -/
theorem eq_of_filterMap_eq {f g : LedgerCall → Option Payment} {calls : List LedgerCall}
    (hfg : ∀ call ∈ calls, ∀ p, f call = some p → g call = some p)
    (heq : calls.filterMap f = calls.filterMap g) {call : LedgerCall} (hcall : call ∈ calls) :
    f call = g call := by
  induction calls with
  | nil => cases hcall
  | cons d calls ih =>
    obtain ⟨hd, hcalls⟩ := List.forall_mem_cons.mp hfg
    have hsub := (filterMap_sublist hcalls).length_le
    rcases hf : f d with _ | p
    · rcases hg : g d with _ | q
      · rw [List.filterMap_cons_none hf, List.filterMap_cons_none hg] at heq
        rcases List.mem_cons.mp hcall with rfl | hcall
        · rw [hf, hg]
        · exact ih hcalls heq hcall
      · -- The second way picks from `d` and the first does not, so its list is longer.
        rw [List.filterMap_cons_none hf, List.filterMap_cons_some hg] at heq
        have hlen := congrArg List.length heq
        simp only [List.length_cons] at hlen
        omega
    · rw [List.filterMap_cons_some hf, List.filterMap_cons_some (hd p hf), List.cons.injEq] at heq
      rcases List.mem_cons.mp hcall with rfl | hcall
      · rw [hf, hd p hf]
      · exact ih hcalls heq.2 hcall

theorem namesSeparate_of_ownHistory {run : List LedgerCall} (h : OpenedRun run)
    (hown : OwnHistory run) : NamesSeparate run := by
  intro u n debt ref hborrower c amount date k hpayment hne
  have hproper := h.properRun
  have hload := hown u ⟨ref, n, debt⟩ ((stored_iff hproper).mpr hborrower)
  have hlegal : IsPathString n := hproper.legal hborrower
  have hcross := noCrossing_of_viewDidLoad hproper hlegal hload
  have hout := (noCrossing_paymentsNode_iff u n run).mp hcross c amount date k hpayment
  refine ⟨fun hpre => ?_, hout.2⟩
  have hsame : components n = components c.name := by
    by_contra hdiff
    exact hout.1 ⟨hpre, hdiff⟩
  rw [viewDidLoad_of_noCrossing h hlegal hcross] at hload
  simp only [Except.ok.injEq, PaymentsTableViewController.mk.injEq, true_and] at hload
  have hpick : recordedThrough u ref (.sendPayment u c amount date k) =
      filedAt (paymentsNode u n) (.sendPayment u c amount date k) := by
    apply eq_of_filterMap_eq _ hload.symm hpayment
    intro call hcall p hp
    exact filedAt_of_recordedThrough h (b := ⟨ref, n, debt⟩) hborrower hcall hp
  simp [recordedThrough, filedAt, hne, paymentsNode, hsame] at hpick

theorem ownHistory_of_namesSeparate {run : List LedgerCall} (h : OpenedRun run)
    (hsep : NamesSeparate run) : OwnHistory run := by
  intro u b hb
  have hproper := h.properRun
  have hborrower := (stored_iff hproper).mp hb
  have hlegal : IsPathString b.name := hproper.legal hborrower
  have hcross : NoCrossing (paymentsNode u b.name) run := by
    rw [noCrossing_paymentsNode_iff]
    intro c amount date k hpayment
    by_cases href : c.ref = b.ref
    · have hc := h.sendBorrower_mem hpayment
      rw [href] at hc
      rw [hproper.name_eq hc hborrower]
      simp [KeepsOutOf]
    · have hout := hsep u b.name b.debt b.ref hborrower c amount date k hpayment href
      exact ⟨fun hpre => hout.1 hpre.1, hout.2⟩
  rw [viewDidLoad_of_noCrossing h hlegal hcross]
  have hpick : ∀ call ∈ run, filedAt (paymentsNode u b.name) call = recordedThrough u b.ref call := by
    intro call hcall
    rcases hrec : recordedThrough u b.ref call with _ | p
    · cases call with
      | sendBorrower v name debt k => rfl
      | sendPayment v c amount date k =>
        rw [filedAt, if_neg]
        intro hnode
        simp only [paymentsNode, List.cons.injEq, true_and] at hnode
        obtain rfl := Uid.key_injective hnode.1
        have hne : c.ref ≠ b.ref := by simpa [recordedThrough] using hrec
        have hout := hsep v b.name b.debt b.ref hborrower c amount date k hcall hne
        exact hout.1 (hnode.2 ▸ List.prefix_refl _)
    · exact filedAt_of_recordedThrough h hborrower hcall hrec
  rw [List.filterMap_congr hpick]

/-- Every borrower has its own exact history exactly when no payment goes
through a name that leads to the node of another borrower. -/
theorem every_borrower_has_its_own_history_iff_the_names_are_separate (run : List LedgerCall)
    (h : OpenedRun run) : OwnHistory run ↔ NamesSeparate run :=
  ⟨namesSeparate_of_ownHistory h, ownHistory_of_namesSeparate h⟩

/-- A payment after two borrowers is an opened run when its borrower is one of them. -/
theorem openedRun_of_two_borrowers {u v : Uid} {n m debt debt' amount date : String} {b : Borrower}
    {j k l : Key} (h : ProperRun [.sendBorrower u n debt j, .sendBorrower v m debt' k,
      .sendPayment v b amount date l])
    (hb : .sendBorrower v b.name b.debt b.ref ∈
      [LedgerCall.sendBorrower u n debt j, .sendBorrower v m debt' k])
    (hinc : [j, k, l].Pairwise (· < ·)) :
    OpenedRun [.sendBorrower u n debt j, .sendBorrower v m debt' k, .sendPayment v b amount date l] := by
  obtain ⟨hfirst, hsecond, hthird, -⟩ := h
  refine ⟨⟨⟨hfirst, ?_⟩, ⟨hsecond, ?_⟩, ⟨hthird, ?_⟩, trivial⟩, hinc⟩
  · intro _ _ _ _ _ hcall
    cases hcall
  · intro _ _ _ _ _ hcall
    cases hcall
  · intro _ _ _ _ _ hcall
    cases hcall
    have hborrowers : ProperRun [.sendBorrower u n debt j, .sendBorrower v m debt' k] :=
      ⟨hfirst, hsecond, trivial⟩
    exact (stored_iff hborrowers).mpr hb

theorem two_names_have_their_own_histories :
    OwnHistory [.sendBorrower alice "Ann" "10" ⟨"-K1"⟩, .sendBorrower alice "Bob" "20" ⟨"-K2"⟩,
      .sendPayment alice ⟨⟨"-K2"⟩, "Bob", "20"⟩ "5" "2017-10-10 16:58:34 +0000" ⟨"-K3"⟩] := by
  refine (every_borrower_has_its_own_history_iff_the_names_are_separate _ ?_).mpr ?_
  · apply openedRun_of_two_borrowers
    · apply properRun_of_new_keys <;> decide
    · decide
    · decide
  · intro u n debt ref hborrower c amount date k hpayment hne
    simp only [List.mem_cons, LedgerCall.sendPayment.injEq, reduceCtorEq, List.not_mem_nil, or_false,
      false_or] at hpayment
    obtain ⟨rfl, rfl, -, -, rfl⟩ := hpayment
    simp only [List.mem_cons, LedgerCall.sendBorrower.injEq, reduceCtorEq, List.not_mem_nil,
      or_false] at hborrower
    rcases hborrower with ⟨-, rfl, -, rfl⟩ | ⟨-, rfl, -, rfl⟩
    · decide
    · exact absurd rfl hne

/-- Two borrowers named Ann, and a payment of the second one. -/
def namesakes : List LedgerCall :=
  [.sendBorrower alice "Ann" "10" ⟨"-K1"⟩, .sendBorrower alice "Ann" "20" ⟨"-K2"⟩,
    .sendPayment alice ⟨⟨"-K2"⟩, "Ann", "20"⟩ "5" "2017-10-10 16:58:34 +0000" ⟨"-K3"⟩]

theorem openedRun_namesakes : OpenedRun namesakes := by
  apply openedRun_of_two_borrowers
  · apply properRun_of_new_keys <;> decide
  · decide
  · decide

/-- The list of the first Ann shows the payment that was recorded through the second one. -/
theorem a_payment_shows_in_the_list_of_a_namesake :
    OpenedRun namesakes ∧ ¬ OwnHistory namesakes := by
  refine ⟨openedRun_namesakes, fun hown => ?_⟩
  have hstored : Stored alice (ledger namesakes) ⟨⟨"-K1"⟩, "Ann", "10"⟩ :=
    (stored_iff openedRun_namesakes.properRun).mpr (by decide)
  have hload := hown alice _ hstored
  have hshown : PaymentsTableViewController.viewDidLoad
      { borrowerAtIndex := some ⟨⟨"-K1"⟩, "Ann", "10"⟩ } (some alice) (ledger namesakes) =
        .ok { borrowerAtIndex := some ⟨⟨"-K1"⟩, "Ann", "10"⟩,
              payments := [⟨"5", "2017-10-10 16:58:34 +0000"⟩] } := by decide
  rw [hshown] at hload
  exact absurd hload (by decide)

end SharkCollector
