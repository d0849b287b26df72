-- Origins: where every record comes from. A record is there because the user
-- of a device made one of the two calls that write, so what the server holds
-- and what a device sees is a ledger, and an account's part of it is what the
-- calls of this account make.
import SharkCollector.Ledger
import SharkCollector.Cloud

namespace SharkCollector

open PathTree Runs

/-! ## What a step writes -/

/-- The device that takes a step of the cloud. -/
def CloudStep.device : CloudStep → Option Device
  | .signedIn d _ => some d
  | .signedOut d => some d
  | .borrowersViewDidLoad d => some d
  | .paymentsViewDidLoad d _ => some d
  | .sendBorrower d _ _ _ => some d
  | .sendPayment d _ _ _ _ => some d
  | .accepted _ => none
  | .rejected _ => none
  | .deliver _ => none

theorem CloudStep.Writes.device {s : Cloud} {a : CloudStep} {w : Write} (h : a.Writes s w) :
    a.device = some w.device := by
  cases a with
  | sendBorrower d name debt key => exact congrArg some h.2.1.symm
  | sendPayment d b amount date key => exact congrArg some h.2.1.symm
  | _ => cases h

theorem mem_known_on {s t : Cloud} {d : Device} {w : Write} (h : w ∈ (s.on d t).known) :
    w ∈ s.known ∨ d ∉ s.crashed ∧ w ∈ t.known := by
  unfold Cloud.on at h
  split at h
  · exact Or.inl h
  · rename_i hd
    exact Or.inr ⟨hd, h⟩

theorem mem_known_send {s : Cloud} {d : Device} {key : Key} {result : Except Fault (Option Push)}
    {w : Write} (h : w ∈ (s.send d key result).known) :
    w ∈ s.known ∨ w.device = d ∧ w.key = key ∧ result = .ok (some w.push) := by
  unfold Cloud.send at h
  rcases result with _ | (_ | push)
  · exact Or.inl h
  · exact Or.inl h
  · simp only [Cloud.known, Cloud.notifyAll, List.mem_append, List.mem_singleton] at h
    rw [mem_known]
    rcases h with (h | h | rfl) | h
    · exact Or.inl (Or.inl h)
    · exact Or.inl (Or.inr (Or.inl h))
    · exact Or.inr ⟨rfl, rfl, rfl⟩
    · exact Or.inl (Or.inr (Or.inr h))

theorem known_attach (s : Cloud) (d : Device) (controller : ListController)
    (result : Except Fault Reference) : (s.attach d controller result).known = s.known := by
  rcases result with _ | node <;> rfl

theorem known_deliver (s : Cloud) (i : Nat) : (s.deliver i).known = s.known := by
  unfold Cloud.deliver
  repeat' split
  all_goals rfl

/-- An answer makes no new write, whatever keys the writes have. -/
theorem Answered.known_of_known {s t : Cloud} {w v : Write} (ha : Answered s t w) (h : v ∈ t.known) :
    v ∈ s.known := by
  have hw := ha.mem
  rw [SharkCollector.mem_known, ha.pending, mem_others] at h
  rw [SharkCollector.mem_known]
  rcases ha.answer with ⟨hacc, hrej⟩ | ⟨hacc, hrej⟩
  · rw [hacc, hrej, List.mem_append, List.mem_singleton] at h
    grind
  · rw [hacc, hrej, List.mem_append, List.mem_singleton] at h
    grind

theorem known_accept {s : Cloud} {key : Key} {w : Write} (h : w ∈ (s.accept key).known) :
    w ∈ s.known := by
  unfold Cloud.accept at h
  rcases hv : s.awaiting key with _ | v
  · rw [hv] at h
    exact h
  · obtain ⟨hmem, rfl⟩ := awaiting_eq_some hv
    rw [hv] at h
    have ha : Answered s (Cloud.notifyAll { s with
        accepted := s.accepted ++ [v], pending := s.others v.key } s) v :=
      ⟨hmem, rfl, Or.inl ⟨rfl, rfl⟩, rfl⟩
    exact ha.known_of_known h

theorem known_reject {s : Cloud} {key : Key} {w : Write} (h : w ∈ (s.reject key).known) :
    w ∈ s.known := by
  unfold Cloud.reject at h
  rcases hv : s.awaiting key with _ | v
  · rw [hv] at h
    exact h
  · obtain ⟨hmem, rfl⟩ := awaiting_eq_some hv
    rw [hv] at h
    have ha : Answered s (Cloud.notifyAll { s with
        rejected := s.rejected ++ [v], pending := s.others v.key } s) v :=
      ⟨hmem, rfl, Or.inr ⟨rfl, rfl⟩, rfl⟩
    exact ha.known_of_known h

/-- A known write was known before the step, or the step made it. -/
theorem known_apply {s : Cloud} {a : CloudStep} {w : Write} (h : w ∈ (a.apply s).known) :
    w ∈ s.known ∨ a.Writes s w := by
  cases a with
  | signedIn d u =>
    rcases mem_known_on h with h | ⟨-, h⟩
    · exact Or.inl h
    · exact Or.inl h
  | signedOut d =>
    rcases mem_known_on h with h | ⟨-, h⟩
    · exact Or.inl h
    · exact Or.inl h
  | borrowersViewDidLoad d =>
    rcases mem_known_on h with h | ⟨-, h⟩
    · exact Or.inl h
    · exact Or.inl (known_attach s d _ _ ▸ h)
  | paymentsViewDidLoad d b =>
    rcases mem_known_on h with h | ⟨-, h⟩
    · exact Or.inl h
    · exact Or.inl (known_attach s d _ _ ▸ h)
  | sendBorrower d name debt key =>
    rcases mem_known_on h with h | ⟨hrunning, h⟩
    · exact Or.inl h
    · rcases mem_known_send h with h | ⟨hd, hkey, hresult⟩
      · exact Or.inl h
      · exact Or.inr ⟨hrunning, hd, hkey, writes_of_sendBorrower hresult⟩
  | sendPayment d b amount date key =>
    rcases mem_known_on h with h | ⟨hrunning, h⟩
    · exact Or.inl h
    · rcases mem_known_send h with h | ⟨hd, hkey, hresult⟩
      · exact Or.inl h
      · exact Or.inr ⟨hrunning, hd, hkey, writes_of_sendPayment hresult⟩
  | accepted key => exact Or.inl (known_accept h)
  | rejected key => exact Or.inl (known_reject h)
  | deliver i => exact Or.inl (known_deliver s i ▸ h)

/-- Behind every known write of a run is the step that made it. -/
theorem known_origin {run : List CloudStep} {w : Write}
    (h : w ∈ (exec CloudStep.apply {} run).known) :
    ∃ s a, Takes CloudStep.apply {} run s a ∧ a.Writes s w := by
  have horigin := exec_origin (I := fun s : Cloud => w ∈ s.known)
    (C := fun s (a : CloudStep) => a.Writes s w) (fun _ _ => known_apply) h
  rcases horigin with hnone | hstep
  · simp [Cloud.known] at hnone
  · exact hstep

/-! ## Users -/

theorem currentUser_on {s t : Cloud} (h : t.currentUser = s.currentUser) (d : Device) :
    (s.on d t).currentUser = s.currentUser := by
  unfold Cloud.on
  split
  · rfl
  · exact h

theorem currentUser_attach (s : Cloud) (d : Device) (controller : ListController)
    (result : Except Fault Reference) :
    (s.attach d controller result).currentUser = s.currentUser := by
  rcases result with _ | node <;> rfl

theorem currentUser_send (s : Cloud) (d : Device) (key : Key) (result : Except Fault (Option Push)) :
    (s.send d key result).currentUser = s.currentUser := by
  rcases result with _ | (_ | push) <;> rfl

theorem currentUser_accept (s : Cloud) (key : Key) : (s.accept key).currentUser = s.currentUser := by
  unfold Cloud.accept
  split <;> rfl

theorem currentUser_reject (s : Cloud) (key : Key) : (s.reject key).currentUser = s.currentUser := by
  unfold Cloud.reject
  split <;> rfl

theorem currentUser_deliver (s : Cloud) (i : Nat) : (s.deliver i).currentUser = s.currentUser := by
  unfold Cloud.deliver
  repeat' split
  all_goals rfl

/-- Only a sign-in and a sign-out change the user of a device, and only of their own. -/
theorem currentUser_apply_cases (s : Cloud) (a : CloudStep) :
    (a.apply s).currentUser = s.currentUser ∨
      ∃ d user, (a.apply s).currentUser = Function.update s.currentUser d user ∧
        ((∃ u, a = .signedIn d u ∧ user = some u) ∨ a = .signedOut d ∧ user = none) := by
  cases a with
  | signedIn d u =>
    by_cases hd : d ∈ s.crashed
    · exact Or.inl (by simp [CloudStep.apply, Cloud.on, hd])
    · exact Or.inr ⟨d, some u, by simp [CloudStep.apply, Cloud.on, hd], Or.inl ⟨u, rfl, rfl⟩⟩
  | signedOut d =>
    by_cases hd : d ∈ s.crashed
    · exact Or.inl (by simp [CloudStep.apply, Cloud.on, hd])
    · exact Or.inr ⟨d, none, by simp [CloudStep.apply, Cloud.on, hd], Or.inr ⟨rfl, rfl⟩⟩
  | borrowersViewDidLoad d => exact Or.inl (currentUser_on (currentUser_attach ..) d)
  | paymentsViewDidLoad d b => exact Or.inl (currentUser_on (currentUser_attach ..) d)
  | sendBorrower d name debt key => exact Or.inl (currentUser_on (currentUser_send ..) d)
  | sendPayment d b amount date key => exact Or.inl (currentUser_on (currentUser_send ..) d)
  | accepted key => exact Or.inl (currentUser_accept s key)
  | rejected key => exact Or.inl (currentUser_reject s key)
  | deliver i => exact Or.inl (currentUser_deliver s i)

/-! ## The database as a ledger -/

/-- The call behind a write. -/
def Write.MadeBy (w : Write) (call : LedgerCall) : Prop :=
  call.push = .ok (some w.push) ∧ call.key = w.key

/-- Behind a write of a step is a call of the user of its device. -/
theorem CloudStep.Writes.madeBy {s : Cloud} {a : CloudStep} {w : Write} (h : a.Writes s w) :
    ∃ call, w.MadeBy call ∧ s.currentUser w.device = some call.user := by
  cases a with
  | sendBorrower d name debt key =>
    obtain ⟨-, rfl, hkey, u, hu, hw⟩ := h
    refine ⟨.sendBorrower u name debt key, ⟨?_, hkey.symm⟩, hu⟩
    rw [hw, LedgerCall.push, sendBorrowersToDatabase_some]
    rfl
  | sendPayment d b amount date key =>
    obtain ⟨-, rfl, hkey, hb, u, day, hu, -, hw⟩ := h
    refine ⟨.sendPayment u b amount day key, ⟨?_, hkey.symm⟩, hu⟩
    rw [hw, LedgerCall.push, sendPaymentsToDatabase_eq u b _ _ hb]
  | _ => cases h

theorem apply_madeBy {w : Write} {call : LedgerCall} (h : w.MadeBy call) (db : Database) :
    call.apply db = w.apply db := by
  unfold LedgerCall.apply Write.apply
  rw [h.1, h.2]

theorem exec_madeBy {ws : List Write} {calls : List LedgerCall}
    (h : List.Forall₂ Write.MadeBy ws calls) (db : Database) :
    exec Write.apply db ws = exec LedgerCall.apply db calls := by
  induction h generalizing db with
  | nil => rfl
  | cons hw _ ih => rw [exec_cons, exec_cons, apply_madeBy hw, ih]

/-- A step of the run made the write, and the call behind it is of the user that the device of the
write had then. -/
def Write.MadeIn (run : List CloudStep) (w : Write) (call : LedgerCall) : Prop :=
  w.MadeBy call ∧ ∃ s a, Takes CloudStep.apply {} run s a ∧ a.Writes s w ∧
    s.currentUser w.device = some call.user

theorem madeIn_of_known {run : List CloudStep} {w : Write}
    (h : w ∈ (exec CloudStep.apply {} run).known) : ∃ call, w.MadeIn run call := by
  obtain ⟨s, a, htakes, hw⟩ := known_origin h
  obtain ⟨call, hcall, huser⟩ := hw.madeBy
  exact ⟨call, hcall, s, a, htakes, hw, huser⟩

/-- The writes are those of calls that the users made in the run, in this order, and their
database is the ledger of these calls. Each account's part of it is the ledger of its own calls. -/
def IsLedger (run : List CloudStep) (ws : List Write) : Prop :=
  ∃ calls, List.Forall₂ (Write.MadeIn run) ws calls ∧ tree ws = ledger calls ∧
    ∀ v, SameFor v (tree ws) (ledger (calls.filter (callOf v)))

theorem isLedger_of_known {run : List CloudStep} {ws : List Write}
    (h : ∀ w ∈ ws, w ∈ (exec CloudStep.apply {} run).known) : IsLedger run ws := by
  have hcalls : ∃ calls, List.Forall₂ (Write.MadeIn run) ws calls := by
    induction ws with
    | nil => exact ⟨[], .nil⟩
    | cons w ws ih =>
      obtain ⟨call, hcall⟩ := madeIn_of_known (h w List.mem_cons_self)
      obtain ⟨calls, hcalls⟩ := ih fun v hv => h v (List.mem_cons_of_mem _ hv)
      exact ⟨call :: calls, .cons hcall hcalls⟩
  obtain ⟨calls, hcalls⟩ := hcalls
  have htree : tree ws = ledger calls := exec_madeBy (hcalls.imp fun _ _ hw => hw.1) Node.empty
  refine ⟨calls, hcalls, htree, ?_⟩
  intro v
  rw [htree]
  exact sameFor_ledger v calls

/-- On any number of devices, after every run of steps, the database of the
server is the ledger of the accepted calls, and the view of a device that of the
calls it sees, whatever names, keys and users the calls have. -/
theorem the_server_and_every_view_are_ledgers (run : List CloudStep) :
    IsLedger run (exec CloudStep.apply {} run).accepted ∧
      ∀ d, IsLedger run ((exec CloudStep.apply {} run).visible d) := by
  refine ⟨?_, fun d => ?_⟩
  · exact isLedger_of_known fun w hw => mem_known.mpr (Or.inl hw)
  · exact isLedger_of_known fun w hw => mem_known_of_mem_visible hw

end SharkCollector
