-- Isolation: what a group of devices goes through when its accounts are used
-- on no other device. Leave out all that the other devices do, and everything on the
-- devices of the group stays the same: users, lists, waiting events and traps.
import SharkCollector.Origins
import SharkCollector.RejectedWrites

namespace SharkCollector

open PathTree Runs

/-! ## Places in a filtered list -/

section Filtered
variable {α : Type} {p : α → Bool} {xs : List α} {i : Nat} {x y : α}

theorem eq_append_cons_of_getElem? (hx : xs[i]? = some x) :
    ∃ front back, xs = front ++ x :: back ∧ front.length = i := by
  obtain ⟨hi, rfl⟩ := List.getElem?_eq_some_iff.mp hx
  refine ⟨xs.take i, xs.drop (i + 1), ?_, ?_⟩
  · rw [List.getElem_cons_drop, List.take_append_drop]
  · rw [List.length_take]
    omega

/-- What passes the filter stands behind those before it that pass. -/
theorem getElem?_filter_countP (hx : xs[i]? = some x) (hp : p x) :
    (xs.filter p)[(xs.take i).countP p]? = some x := by
  obtain ⟨front, back, rfl, rfl⟩ := eq_append_cons_of_getElem? hx
  simp [List.countP_eq_length_filter, hp]

theorem filter_set_countP (hx : xs[i]? = some x) (hp : p x) (hy : p y) :
    (xs.set i y).filter p = (xs.filter p).set ((xs.take i).countP p) y := by
  obtain ⟨front, back, rfl, rfl⟩ := eq_append_cons_of_getElem? hx
  simp [List.countP_eq_length_filter, hp, hy]

theorem filter_set_of_not (hx : xs[i]? = some x) (hp : ¬ p x) (hy : ¬ p y) :
    (xs.set i y).filter p = xs.filter p := by
  obtain ⟨front, back, rfl, rfl⟩ := eq_append_cons_of_getElem? hx
  simp [hp, hy]

end Filtered

/-! ## The run of a group of devices -/

/-- What is left of a step: the steps of the other devices go, and a delivery to
one of the lists that stay finds the list at its place among these. -/
def Cloud.stepOn (group : Device → Bool) (s : Cloud) (a : CloudStep) : List CloudStep :=
  match a.device with
  | some d => if group d then [a] else []
  | none =>
    match a with
    | .deliver i =>
      match s.observers[i]? with
      | some o =>
        if group o.device then [.deliver ((s.observers.take i).countP fun o => group o.device)]
        else []
      | none => []
    | a => [a]

/-- The run without the other devices. -/
def runOn (group : Device → Bool) (run : List CloudStep) : List CloudStep :=
  translate CloudStep.apply (Cloud.stepOn group) {} run

/-- The second cloud is what the first one has of the devices of the group. -/
structure SameOn (group : Device → Bool) (s s' : Cloud) : Prop where
  currentUser : ∀ d, group d → s'.currentUser d = s.currentUser d
  accepted : s'.accepted = s.accepted.filter fun w => group w.device
  pending : s'.pending = s.pending.filter fun w => group w.device
  rejected : s'.rejected = s.rejected.filter fun w => group w.device
  observers : s'.observers = s.observers.filter fun o => group o.device
  crashed : ∀ d, group d → (d ∈ s'.crashed ↔ d ∈ s.crashed)

/-- No account is used both on a device of the group and on another. -/
def Parted (group : Device → Bool) (run : List CloudStep) : Prop :=
  ∀ d d' u, .signedIn d u ∈ run → .signedIn d' u ∈ run → group d = group d'

/-! ## Accounts and devices -/

/-- A write of the group is a call of one of its accounts, and no other write is. -/
def Write.OnItsSide (group : Device → Bool) (accounts : Set Uid) (w : Write) : Prop :=
  ∃ call, w.MadeBy call ∧ (group w.device ↔ call.user ∈ accounts)

/-- The devices of the group have the accounts, and the other devices have none of them. -/
structure Divided (group : Device → Bool) (accounts : Set Uid) (s : Cloud) : Prop where
  users : ∀ d u, s.currentUser d = some u → (group d ↔ u ∈ accounts)
  written : ∀ w ∈ s.known, w.OnItsSide group accounts
  observed : ∀ o ∈ s.observers, group o.device → ∃ u ∈ accounts, NodeOf u o.node

theorem nodeOf_retrieveBorrowers {user : Option Uid} {node : Reference}
    (h : retrieveBorrowersFromDatabase user = .ok node) : ∃ u, user = some u ∧ NodeOf u node := by
  rcases user with _ | u
  · cases h
  · rw [retrieveBorrowersFromDatabase_some] at h
    cases h
    exact ⟨u, rfl, [], Or.inl (by simp)⟩

theorem nodeOf_retrievePayments {user : Option Uid} {b : Borrower} {node : Reference}
    (h : retrievePayments user (some b) = .ok node) : ∃ u, user = some u ∧ NodeOf u node := by
  rcases user with _ | u
  · cases h
  · by_cases hb : IsPathString b.name
    · rw [retrievePayments_ok u b hb] at h
      cases h
      exact ⟨u, rfl, components b.name, Or.inr rfl⟩
    · rw [retrievePayments_raises u b hb] at h
      cases h

/-- The device and the node of each observer. -/
def Cloud.places (s : Cloud) : List (Device × Reference) := s.observers.map fun o => (o.device, o.node)

section Places
variable {s t : Cloud}

theorem places_notifyAll (s t : Cloud) : (t.notifyAll s).places = t.places := by
  simp [Cloud.places, Cloud.notifyAll, Observer.notify]

theorem places_on (h : t.places = s.places) (d : Device) : (s.on d t).places = s.places := by
  unfold Cloud.on
  split
  · rfl
  · exact h

theorem places_send (s : Cloud) (d : Device) (key : Key) (result : Except Fault (Option Push)) :
    (s.send d key result).places = s.places := by
  rcases result with _ | (_ | push)
  · rfl
  · rfl
  · exact places_notifyAll _ _

theorem places_accept (s : Cloud) (key : Key) : (s.accept key).places = s.places := by
  unfold Cloud.accept
  split
  · exact places_notifyAll _ _
  · rfl

theorem places_reject (s : Cloud) (key : Key) : (s.reject key).places = s.places := by
  unfold Cloud.reject
  split
  · exact places_notifyAll _ _
  · rfl

theorem places_deliver (s : Cloud) (i : Nat) : (s.deliver i).places = s.places := by
  unfold Cloud.deliver
  rcases ho : s.observers[i]? with _ | o
  · rfl
  · rcases hinbox : o.inbox with _ | ⟨e, rest⟩
    · simp only [hinbox]
    · simp only [hinbox]
      split
      · rfl
      · rcases o.controller.receive e with _ | controller
        · rfl
        · -- The list that is told stays where it is.
          apply List.ext_getElem?
          intro j
          unfold Cloud.places
          rw [List.getElem?_map, List.getElem?_map, List.getElem?_set]
          by_cases hij : i = j
          · subst hij
            obtain ⟨hi, rfl⟩ := List.getElem?_eq_some_iff.mp ho
            simp [hi]
          · rw [if_neg hij]

/-- A new observer stands at a node of the user of its device. -/
theorem places_attach (s : Cloud) {d : Device} (controller : ListController)
    {result : Except Fault Reference}
    (hnode : ∀ node, result = .ok node → ∃ u, s.currentUser d = some u ∧ NodeOf u node) :
    (s.on d (s.attach d controller result)).places = s.places ∨
      ∃ u node, s.currentUser d = some u ∧ NodeOf u node ∧
        (s.on d (s.attach d controller result)).places = s.places ++ [(d, node)] := by
  rcases result with fault | node
  · exact Or.inl (places_on (by rfl) d)
  · obtain ⟨u, hu, hnode⟩ := hnode node rfl
    by_cases hd : d ∈ s.crashed
    · exact Or.inl (by simp [Cloud.on, hd])
    · exact Or.inr ⟨u, node, hu, hnode, by simp [Cloud.on, hd, Cloud.attach, Cloud.places]⟩

/-- A step leaves the observers at their places, or it attaches one for the user of its device. -/
theorem places_apply (s : Cloud) (a : CloudStep) :
    (a.apply s).places = s.places ∨ ∃ d u node, s.currentUser d = some u ∧ NodeOf u node ∧
      (a.apply s).places = s.places ++ [(d, node)] := by
  cases a with
  | signedIn d u => exact Or.inl (places_on (by rfl) d)
  | signedOut d => exact Or.inl (places_on (by rfl) d)
  | borrowersViewDidLoad d =>
    rcases places_attach s _ fun _ h => nodeOf_retrieveBorrowers h with h | h
    · exact Or.inl h
    · exact Or.inr ⟨d, h⟩
  | paymentsViewDidLoad d b =>
    rcases places_attach s _ fun _ h => nodeOf_retrievePayments h with h | h
    · exact Or.inl h
    · exact Or.inr ⟨d, h⟩
  | sendBorrower d name debt key => exact Or.inl (places_on (places_send ..) d)
  | sendPayment d b amount date key => exact Or.inl (places_on (places_send ..) d)
  | accepted key => exact Or.inl (places_accept s key)
  | rejected key => exact Or.inl (places_reject s key)
  | deliver i => exact Or.inl (places_deliver s i)

end Places

section Divided
variable {group : Device → Bool} {accounts : Set Uid} {s : Cloud}

/-- The observers that stand at the places of a divided cloud are on their side. -/
theorem Divided.places (h : Divided group accounts s) {d : Device} {node : Reference}
    (hplace : (d, node) ∈ s.places) (hd : group d) : ∃ u ∈ accounts, NodeOf u node := by
  obtain ⟨o, ho, heq⟩ := List.mem_map.mp hplace
  obtain ⟨rfl, rfl⟩ := Prod.mk.inj heq
  exact h.observed o ho hd

theorem divided_initial : Divided group accounts {} :=
  ⟨by simp, by simp [Cloud.known], by simp⟩

/-- A cloud stays divided as long as each account signs in on its side. -/
theorem Divided.apply (h : Divided group accounts s) {a : CloudStep}
    (ha : ∀ d u, a = .signedIn d u → (group d ↔ u ∈ accounts)) :
    Divided group accounts (a.apply s) := by
  refine ⟨?_, ?_, ?_⟩
  · intro d u hu
    rcases currentUser_apply_cases s a with heq | ⟨d', user, heq, hsign⟩
    · rw [heq] at hu
      exact h.users d u hu
    · rw [heq] at hu
      by_cases hd : d = d'
      · subst hd
        rw [Function.update_self] at hu
        rcases hsign with ⟨v, rfl, rfl⟩ | ⟨rfl, rfl⟩
        · obtain rfl : v = u := Option.some.inj hu
          exact ha d v rfl
        · cases hu
      · rw [Function.update_of_ne hd] at hu
        exact h.users d u hu
  · intro w hw
    rcases known_apply hw with hw | hw
    · exact h.written w hw
    · obtain ⟨call, hcall, hu⟩ := hw.madeBy
      exact ⟨call, hcall, h.users w.device call.user hu⟩
  · intro o ho hd
    have hplace : (o.device, o.node) ∈ (a.apply s).places := List.mem_map.mpr ⟨o, ho, rfl⟩
    rcases places_apply s a with heq | ⟨d, u, node, hu, hnode, heq⟩
    · exact h.places (heq ▸ hplace) hd
    · rw [heq, List.mem_append, List.mem_singleton] at hplace
      rcases hplace with hplace | hplace
      · exact h.places hplace hd
      · obtain ⟨rfl, rfl⟩ := Prod.mk.inj hplace
        exact ⟨u, (h.users _ u hu).mp hd, hnode⟩

theorem Divided.of_on {t : Cloud} {d : Device} (h : Divided group accounts (s.on d t))
    (hd : d ∉ s.crashed) : Divided group accounts t := by
  rw [Cloud.on, if_neg hd] at h
  exact h

/-- What the user of a device of the group observes belongs to one of the accounts. -/
theorem Divided.nodeOf (h : Divided group accounts s) {d : Device} (hd : group d) {node : Reference}
    (hnode : ∃ u, s.currentUser d = some u ∧ NodeOf u node) : ∃ u ∈ accounts, NodeOf u node := by
  obtain ⟨u, hu, hnode⟩ := hnode
  exact ⟨u, (h.users d u hu).mp hd, hnode⟩

end Divided

/-! ## Two clouds side by side -/

section SameOn
variable {group : Device → Bool} {accounts : Set Uid} {s s' t t' : Cloud}

theorem SameOn.visible (h : SameOn group s s') (d : Device) :
    s'.visible d = (s.visible d).filter fun w => group w.device := by
  unfold Cloud.visible
  rw [h.accepted, h.pending, List.filter_append, List.filter_comm]

/-- At a node of one of the accounts, a device sees the same children in both clouds. -/
theorem SameOn.childrenAt_view (h : SameOn group s s')
    (hws : ∀ w ∈ s.known, w.OnItsSide group accounts) {u : Uid} (hu : u ∈ accounts)
    {node : Reference} (hnode : NodeOf u node) (d : Device) :
    (s.view d).childrenAt node = (s'.view d).childrenAt node := by
  have hsame : SameFor u (s.view d) (s'.view d) := by
    unfold Cloud.view tree
    rw [h.visible]
    apply exec_filter_related (C := fun _ w => w.OnItsSide group accounts) ⟨rfl, rfl⟩
    · rintro db db' w hdb ⟨call, hcall, -⟩ -
      rw [← apply_madeBy hcall, ← apply_madeBy hcall]
      exact sameFor_apply call hdb
    · rintro db db' w hdb ⟨call, hcall, hside⟩ hdrop
      rw [← apply_madeBy hcall]
      apply sameFor_apply_other call _ hdb
      rintro rfl
      rw [hside.mpr hu] at hdrop
      cases hdrop
    · apply each_of_forall_mem
      intro w hw _
      exact hws w (mem_known_of_mem_visible hw)
  exact hsame.childrenAt hnode

/-- The same change in both clouds tells the lists of the group the same. -/
theorem SameOn.notifyAll (hs : SameOn group s s') (ht : SameOn group t t')
    (hdivided : Divided group accounts s) (hobservers : t.observers = s.observers)
    (hws : ∀ w ∈ t.known, w.OnItsSide group accounts) :
    SameOn group (t.notifyAll s) (t'.notifyAll s') := by
  refine ⟨ht.currentUser, ht.accepted, ht.pending, ht.rejected, ?_, ht.crashed⟩
  unfold Cloud.notifyAll
  simp only [ht.observers, List.filter_map]
  apply List.map_congr_left
  intro o ho
  obtain ⟨hmem, hd⟩ := List.mem_filter.mp ho
  obtain ⟨u, hu, hnode⟩ := hdivided.observed o (hobservers ▸ hmem) hd
  rw [Observer.notify, Observer.notify, hs.childrenAt_view hdivided.written hu hnode,
    ht.childrenAt_view hws hu hnode]

theorem notifyAll_self (s : Cloud) : s.notifyAll s = s := by
  have hid : (s.observers.map fun o => o.notify (s.view o.device) (s.view o.device)) =
      s.observers := by
    rw [List.map_congr_left (g := id), List.map_id]
    intro o _
    rw [Observer.notify, childEvents_self, List.append_nil, id]
  unfold Cloud.notifyAll
  rw [hid]

/-- A change that the second cloud does not make tells the lists of the group nothing. -/
theorem SameOn.notifyAll_left (hs : SameOn group s s') (ht : SameOn group t s')
    (hdivided : Divided group accounts s) (hobservers : t.observers = s.observers)
    (hws : ∀ w ∈ t.known, w.OnItsSide group accounts) : SameOn group (t.notifyAll s) s' := by
  have hsame := hs.notifyAll ht hdivided hobservers hws
  rw [notifyAll_self] at hsame
  exact hsame

/-! ## Steps of the group -/

theorem SameOn.crash (h : SameOn group s s') (d : Device) :
    SameOn group (s.crash d) (s'.crash d) := by
  refine ⟨h.currentUser, h.accepted, h.pending, h.rejected, h.observers, ?_⟩
  intro d' hd'
  simp [Cloud.crash, h.crashed d' hd']

theorem SameOn.on (h : SameOn group s s') {d : Device} (hd : group d)
    (ht : d ∉ s.crashed → SameOn group t t') : SameOn group (s.on d t) (s'.on d t') := by
  unfold Cloud.on
  by_cases hcrashed : d ∈ s.crashed
  · rw [if_pos hcrashed, if_pos ((h.crashed d hd).mpr hcrashed)]
    exact h
  · rw [if_neg hcrashed, if_neg (mt (h.crashed d hd).mp hcrashed)]
    exact ht hcrashed

theorem SameOn.currentUser_update (h : SameOn group s s') (d : Device) (user : Option Uid) :
    SameOn group { s with currentUser := Function.update s.currentUser d user }
      { s' with currentUser := Function.update s'.currentUser d user } := by
  refine ⟨?_, h.accepted, h.pending, h.rejected, h.observers, h.crashed⟩
  intro d' hd'
  by_cases heq : d' = d
  · subst heq
    simp
  · simp [Function.update_of_ne heq, h.currentUser d' hd']

theorem SameOn.attach (h : SameOn group s s') (hdivided : Divided group accounts s) {d : Device}
    (hd : group d) (controller : ListController) (result : Except Fault Reference)
    (hnode : ∀ node, result = .ok node → ∃ u ∈ accounts, NodeOf u node) :
    SameOn group (s.attach d controller result) (s'.attach d controller result) := by
  rcases result with _ | node
  · exact h.crash d
  · obtain ⟨u, hu, hnode⟩ := hnode node rfl
    refine ⟨h.currentUser, h.accepted, h.pending, h.rejected, ?_, h.crashed⟩
    simp only [Cloud.attach, h.observers, List.filter_append,
      h.childrenAt_view hdivided.written hu hnode]
    simp [hd]

theorem SameOn.send (h : SameOn group s s') (hdivided : Divided group accounts s) {d : Device}
    (hd : group d) (key : Key) (result : Except Fault (Option Push))
    (hws : ∀ w ∈ (s.send d key result).known, w.OnItsSide group accounts) :
    SameOn group (s.send d key result) (s'.send d key result) := by
  have hids : SameOn group { s with autoIds := key :: s.autoIds }
      { s' with autoIds := key :: s'.autoIds } :=
    ⟨h.currentUser, h.accepted, h.pending, h.rejected, h.observers, h.crashed⟩
  have hdivided' : Divided group accounts { s with autoIds := key :: s.autoIds } :=
    ⟨hdivided.users, hdivided.written, hdivided.observed⟩
  rcases result with _ | (_ | push)
  · exact hids.crash d
  · exact hids
  · refine hids.notifyAll ⟨h.currentUser, h.accepted, ?_, h.rejected, h.observers, h.crashed⟩
      hdivided' rfl hws
    simp [h.pending, List.filter_append, hd]

/-! ## Answers and deliveries -/

theorem SameOn.others (h : SameOn group s s') (key : Key) :
    s'.others key = (s.others key).filter fun w => group w.device := by
  unfold Cloud.others
  rw [h.pending, List.filter_comm]

/-- A key has one write, so it waits for the same answer in both clouds or in the first one only. -/
theorem SameOn.awaiting (h : SameOn group s s') (hkeyed : Keyed s) (key : Key) :
    s'.awaiting key = (s.awaiting key).filter fun w => group w.device := by
  have hmem : ∀ w, s'.awaiting key = some w → s.awaiting key = some w ∧ group w.device := by
    intro w hw
    obtain ⟨hmem, rfl⟩ := awaiting_eq_some hw
    rw [h.pending, List.mem_filter] at hmem
    refine ⟨?_, hmem.2⟩
    rcases hv : s.awaiting w.key with _ | v
    · simp only [Cloud.awaiting, List.find?_eq_none, decide_eq_true_eq] at hv
      exact absurd rfl (hv w hmem.1)
    · obtain ⟨hvmem, hkey⟩ := awaiting_eq_some hv
      rw [hkeyed.unique v (mem_known.mpr (Or.inr (Or.inl hvmem))) w
        (mem_known.mpr (Or.inr (Or.inl hmem.1))) hkey]
  rcases hw : s'.awaiting key with _ | w
  · rcases hv : s.awaiting key with _ | v
    · rfl
    · obtain ⟨hvmem, rfl⟩ := awaiting_eq_some hv
      have hnone : ¬ group v.device := by
        intro hd
        simp only [Cloud.awaiting, h.pending, List.find?_eq_none] at hw
        exact hw v (List.mem_filter.mpr ⟨hvmem, hd⟩) (by simp)
      simp [Option.filter, hnone]
  · obtain ⟨hv, hd⟩ := hmem w hw
    simp [hv, Option.filter, hd]

theorem others_of_awaiting_none {key : Key} (h : s.awaiting key = none) :
    s.others key = s.pending := by
  simp only [Cloud.awaiting, List.find?_eq_none, decide_eq_true_eq] at h
  simpa [Cloud.others] using h

/-- An answer to a write of another device leaves what the group has pending. -/
theorem SameOn.others_left (h : SameOn group s s') {key : Key} (hnone : s'.awaiting key = none) :
    s'.pending = (s.others key).filter fun w => group w.device := by
  rw [← h.others, others_of_awaiting_none hnone]

theorem SameOn.accept (h : SameOn group s s') (hdivided : Divided group accounts s)
    (hkeyed : Keyed s) (key : Key) : SameOn group (s.accept key) (s'.accept key) := by
  have hawaiting := h.awaiting hkeyed key
  unfold Cloud.accept
  rcases hw : s.awaiting key with _ | w
  · rw [hw] at hawaiting
    rw [hawaiting]
    exact h
  · obtain ⟨hmem, rfl⟩ := awaiting_eq_some hw
    have ha : Answered s { s with accepted := s.accepted ++ [w], pending := s.others w.key } w :=
      ⟨hmem, rfl, Or.inl ⟨rfl, rfl⟩, rfl⟩
    have hws := fun v hv => hdivided.written v (ha.known_of_known hv)
    rw [hw, Option.filter_some] at hawaiting
    by_cases hd : group w.device
    · rw [if_pos hd] at hawaiting
      rw [hawaiting]
      refine h.notifyAll ⟨h.currentUser, ?_, h.others w.key, h.rejected, h.observers, h.crashed⟩
        hdivided rfl hws
      simp [h.accepted, List.filter_append, hd]
    · rw [if_neg hd] at hawaiting
      rw [hawaiting]
      refine h.notifyAll_left ⟨h.currentUser, ?_, h.others_left hawaiting, h.rejected, h.observers,
        h.crashed⟩ hdivided rfl hws
      simp [h.accepted, List.filter_append, hd]

theorem SameOn.reject (h : SameOn group s s') (hdivided : Divided group accounts s)
    (hkeyed : Keyed s) (key : Key) : SameOn group (s.reject key) (s'.reject key) := by
  have hawaiting := h.awaiting hkeyed key
  unfold Cloud.reject
  rcases hw : s.awaiting key with _ | w
  · rw [hw] at hawaiting
    rw [hawaiting]
    exact h
  · obtain ⟨hmem, rfl⟩ := awaiting_eq_some hw
    have ha : Answered s { s with rejected := s.rejected ++ [w], pending := s.others w.key } w :=
      ⟨hmem, rfl, Or.inr ⟨rfl, rfl⟩, rfl⟩
    have hws := fun v hv => hdivided.written v (ha.known_of_known hv)
    rw [hw, Option.filter_some] at hawaiting
    by_cases hd : group w.device
    · rw [if_pos hd] at hawaiting
      rw [hawaiting]
      refine h.notifyAll ⟨h.currentUser, h.accepted, h.others w.key, ?_, h.observers, h.crashed⟩
        hdivided rfl hws
      simp [h.rejected, List.filter_append, hd]
    · rw [if_neg hd] at hawaiting
      rw [hawaiting]
      refine h.notifyAll_left ⟨h.currentUser, h.accepted, h.others_left hawaiting, ?_, h.observers,
        h.crashed⟩ hdivided rfl hws
      simp [h.rejected, List.filter_append, hd]

/-! ## Steps of the other devices -/

theorem SameOn.crash_left (h : SameOn group s s') {d : Device} (hd : ¬ group d) :
    SameOn group (s.crash d) s' := by
  refine ⟨h.currentUser, h.accepted, h.pending, h.rejected, h.observers, ?_⟩
  intro d' hd'
  have hne : d' ≠ d := fun heq => hd (heq ▸ hd')
  simp [Cloud.crash, h.crashed d' hd', hne]

theorem SameOn.on_left (h : SameOn group s s') (d : Device)
    (ht : d ∉ s.crashed → SameOn group t s') : SameOn group (s.on d t) s' := by
  unfold Cloud.on
  split
  · exact h
  · rename_i hcrashed
    exact ht hcrashed

theorem SameOn.currentUser_left (h : SameOn group s s') {d : Device} (hd : ¬ group d)
    (user : Option Uid) :
    SameOn group { s with currentUser := Function.update s.currentUser d user } s' := by
  refine ⟨?_, h.accepted, h.pending, h.rejected, h.observers, h.crashed⟩
  intro d' hd'
  have hne : d' ≠ d := fun heq => hd (heq ▸ hd')
  simp [Function.update_of_ne hne, h.currentUser d' hd']

theorem SameOn.attach_left (h : SameOn group s s') {d : Device} (hd : ¬ group d)
    (controller : ListController) (result : Except Fault Reference) :
    SameOn group (s.attach d controller result) s' := by
  rcases result with _ | node
  · exact h.crash_left hd
  · refine ⟨h.currentUser, h.accepted, h.pending, h.rejected, ?_, h.crashed⟩
    simp [Cloud.attach, h.observers, List.filter_append, hd]

theorem SameOn.send_left (h : SameOn group s s') (hdivided : Divided group accounts s) {d : Device}
    (hd : ¬ group d) (key : Key) (result : Except Fault (Option Push))
    (hws : ∀ w ∈ (s.send d key result).known, w.OnItsSide group accounts) :
    SameOn group (s.send d key result) s' := by
  have hids : SameOn group { s with autoIds := key :: s.autoIds } s' :=
    ⟨h.currentUser, h.accepted, h.pending, h.rejected, h.observers, h.crashed⟩
  have hdivided' : Divided group accounts { s with autoIds := key :: s.autoIds } :=
    ⟨hdivided.users, hdivided.written, hdivided.observed⟩
  rcases result with _ | (_ | push)
  · exact hids.crash_left hd
  · exact hids
  · refine hids.notifyAll_left ⟨h.currentUser, h.accepted, ?_, h.rejected, h.observers, h.crashed⟩
      hdivided' rfl hws
    simp [h.pending, List.filter_append, hd]

/-! ## The whole run -/

/-- A delivery to a list of the group is the same in both clouds, and any other tells the group
nothing. -/
theorem SameOn.deliver (h : SameOn group s s') (i : Nat) :
    SameOn group (s.deliver i) (exec CloudStep.apply s' (s.stepOn group (.deliver i))) := by
  rcases ho : s.observers[i]? with _ | o
  · simp only [Cloud.stepOn, CloudStep.device, Cloud.deliver, ho, exec_nil]
    exact h
  · by_cases hd : group o.device
    · have hplace : s'.observers[(s.observers.take i).countP fun o => group o.device]? = some o := by
        rw [h.observers]
        exact getElem?_filter_countP (p := fun o => group o.device) ho hd
      simp only [Cloud.stepOn, CloudStep.device, ho, hd, if_true, exec_cons, exec_nil,
        CloudStep.apply, Cloud.deliver, hplace]
      rcases o.inbox with _ | ⟨e, rest⟩
      · exact h
      · by_cases hcrashed : o.device ∈ s.crashed
        · simp only [hcrashed, (h.crashed _ hd).mpr hcrashed, if_true]
          exact h
        · simp only [hcrashed, mt (h.crashed _ hd).mp hcrashed, if_false]
          rcases o.controller.receive e with _ | controller
          · exact h.crash o.device
          · refine ⟨h.currentUser, h.accepted, h.pending, h.rejected, ?_, h.crashed⟩
            simp only [h.observers]
            exact (filter_set_countP (p := fun o => group o.device)
              (y := { o with controller, inbox := rest }) ho hd hd).symm
    · simp only [Cloud.stepOn, CloudStep.device, Cloud.deliver, ho, if_neg hd, exec_nil]
      rcases o.inbox with _ | ⟨e, rest⟩
      · exact h
      · by_cases hcrashed : o.device ∈ s.crashed
        · simp only [hcrashed, if_true]
          exact h
        · simp only [hcrashed, if_false]
          rcases o.controller.receive e with _ | controller
          · exact h.crash_left hd
          · refine ⟨h.currentUser, h.accepted, h.pending, h.rejected, ?_, h.crashed⟩
            rw [h.observers]
            exact (filter_set_of_not (p := fun o => group o.device)
              (y := { o with controller, inbox := rest }) ho hd hd).symm

/-- A step of the group keeps the clouds the same on it. -/
theorem SameOn.apply (h : SameOn group s s') (hdivided : Divided group accounts s) {a : CloudStep}
    (hafter : Divided group accounts (a.apply s)) {d : Device} (ha : a.device = some d)
    (hd : group d) : SameOn group (a.apply s) (a.apply s') := by
  cases a with
  | signedIn d' u =>
    cases ha
    exact h.on hd fun _ => h.currentUser_update d (some u)
  | signedOut d' =>
    cases ha
    exact h.on hd fun _ => h.currentUser_update d none
  | borrowersViewDidLoad d' =>
    cases ha
    simp only [CloudStep.apply, h.currentUser d hd]
    refine h.on hd fun _ => h.attach hdivided hd _ _ fun node hnode => ?_
    exact hdivided.nodeOf hd (nodeOf_retrieveBorrowers hnode)
  | paymentsViewDidLoad d' b =>
    cases ha
    simp only [CloudStep.apply, h.currentUser d hd]
    refine h.on hd fun _ => h.attach hdivided hd _ _ fun node hnode => ?_
    exact hdivided.nodeOf hd (nodeOf_retrievePayments hnode)
  | sendBorrower d' name debt key =>
    cases ha
    simp only [CloudStep.apply, h.currentUser d hd]
    exact h.on hd fun hcrashed => h.send hdivided hd key _ (hafter.of_on hcrashed).written
  | sendPayment d' b amount date key =>
    cases ha
    simp only [CloudStep.apply, h.currentUser d hd]
    exact h.on hd fun hcrashed => h.send hdivided hd key _ (hafter.of_on hcrashed).written
  | accepted key => cases ha
  | rejected key => cases ha
  | deliver i => cases ha

/-- A step of another device changes nothing on the group. -/
theorem SameOn.apply_left (h : SameOn group s s') (hdivided : Divided group accounts s)
    {a : CloudStep} (hafter : Divided group accounts (a.apply s)) {d : Device}
    (ha : a.device = some d) (hd : ¬ group d) : SameOn group (a.apply s) s' := by
  cases a with
  | signedIn d' u =>
    cases ha
    exact h.on_left d fun _ => h.currentUser_left hd (some u)
  | signedOut d' =>
    cases ha
    exact h.on_left d fun _ => h.currentUser_left hd none
  | borrowersViewDidLoad d' =>
    cases ha
    exact h.on_left d fun _ => h.attach_left hd _ _
  | paymentsViewDidLoad d' b =>
    cases ha
    exact h.on_left d fun _ => h.attach_left hd _ _
  | sendBorrower d' name debt key =>
    cases ha
    exact h.on_left d fun hcrashed => h.send_left hdivided hd key _ (hafter.of_on hcrashed).written
  | sendPayment d' b amount date key =>
    cases ha
    exact h.on_left d fun hcrashed => h.send_left hdivided hd key _ (hafter.of_on hcrashed).written
  | accepted key => cases ha
  | rejected key => cases ha
  | deliver i => cases ha

/-- Every step, and what is left of it, keep the clouds the same on the group. -/
theorem SameOn.step (h : SameOn group s s') (hkeyed : Keyed s) {a : CloudStep}
    (hdivided : Divided group accounts s) (hafter : Divided group accounts (a.apply s)) :
    SameOn group (a.apply s) (exec CloudStep.apply s' (s.stepOn group a)) := by
  rcases ha : a.device with _ | d
  · cases a with
    | accepted key => exact h.accept hdivided hkeyed key
    | rejected key => exact h.reject hdivided hkeyed key
    | deliver i => exact h.deliver i
    | _ => cases ha
  · by_cases hd : group d
    · simp only [Cloud.stepOn, ha, if_pos hd, exec_cons, exec_nil]
      exact h.apply hdivided hafter ha hd
    · simp only [Cloud.stepOn, ha, if_neg hd, exec_nil]
      exact h.apply_left hdivided hafter ha hd

end SameOn

/-- On any number of devices, in every order of steps: when no account of a group
of devices is used on another device, the group has the same users, records,
lists, waiting events and traps as in the run without the other devices, whatever
names and amounts the others write. -/
theorem the_other_devices_make_no_difference (group : Device → Bool) (run : List CloudStep)
    (hfresh : Each CloudStep.apply FreshKey {} run) (hparted : Parted group run) :
    SameOn group (exec CloudStep.apply {} run) (exec CloudStep.apply {} (runOn group run)) := by
  -- The accounts of the group are those that sign in on one of its devices.
  let accounts : Set Uid := { u | ∃ d, group d ∧ .signedIn d u ∈ run }
  have hsigns : Each CloudStep.apply
      (fun _ a => ∀ d u, a = .signedIn d u → (group d ↔ u ∈ accounts)) {} run := by
    apply each_of_forall_mem
    rintro a ha - d u rfl
    constructor
    · intro hd
      exact ⟨d, hd, ha⟩
    · rintro ⟨d', hd', ha'⟩
      rw [hparted d d' u ha ha']
      exact hd'
  have hdivided : Always CloudStep.apply (Divided group accounts) {} run :=
    always_invariant divided_initial (fun _ _ hs ha => hs.apply ha) hsigns
  have hkeyed : Always CloudStep.apply Keyed {} run :=
    always_invariant (keyed_initial _) (fun _ _ hs hkey => hs.change hkey.change) hfresh
  have hinitial : SameOn group {} {} := by
    refine ⟨fun _ _ => rfl, rfl, rfl, rfl, rfl, fun _ _ => Iff.rfl⟩
  apply exec_translate hinitial _ (each_and (each_of_always hkeyed) (each_of_always hdivided))
  rintro s s' a h ⟨⟨hkeys, -⟩, hs, hafter⟩
  exact h.step hkeys hs hafter

/-- Two accounts on two devices, each with its table open. Both write a borrower. -/
def twoAccounts : List CloudStep :=
  [.signedIn 1 bob, .borrowersViewDidLoad 1, .signedIn 0 alice, .borrowersViewDidLoad 0,
    .sendBorrower 0 "Ann" "10" ⟨"-K1"⟩, .sendBorrower 1 "Carl" "7" ⟨"-K2"⟩, .accepted ⟨"-K2"⟩,
    .deliver 0, .deliver 1]

example : runOn (fun d => decide (d = 0)) twoAccounts =
    [.signedIn 0 alice, .borrowersViewDidLoad 0, .sendBorrower 0 "Ann" "10" ⟨"-K1"⟩,
      .accepted ⟨"-K2"⟩, .deliver 0] := by rfl

theorem the_second_account_makes_no_difference :
    SameOn (fun d => decide (d = 0)) (exec CloudStep.apply {} twoAccounts)
      (exec CloudStep.apply {} (runOn (fun d => decide (d = 0)) twoAccounts)) := by
  have hparted : Parted (fun d => decide (d = 0)) twoAccounts := by
    intro d d' u h h'
    simp only [twoAccounts, List.mem_cons, CloudStep.signedIn.injEq, reduceCtorEq, List.not_mem_nil,
      or_false, false_or] at h h'
    rcases h with ⟨rfl, rfl⟩ | ⟨rfl, rfl⟩ <;> rcases h' with ⟨rfl, h'⟩ | ⟨rfl, h'⟩
    · rfl
    · exact absurd h' (by decide)
    · exact absurd h' (by decide)
    · rfl
  exact the_other_devices_make_no_difference _ twoAccounts (by decide) hparted

end SharkCollector
