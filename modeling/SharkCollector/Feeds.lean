-- Feeds: what an observer is told over its whole life, for any node of the
-- database. The snapshots that its list has read and those that still wait
-- make up its feed. As long as every write goes to the node itself or stays
-- apart from it, the feed holds each visible record of the node once.
import SharkCollector.Cloud
import SharkCollector.PaymentsTree

namespace SharkCollector

open PathTree Runs

/-! ## The children of a node -/

/-- The record of a write, as an observer of its node receives it. -/
def Write.snapshot (w : Write) : Snapshot := (w.key, w.value)

/-- A write goes to `node` itself, or it leads neither to `node` nor through it. -/
def Write.KeepsClear (w : Write) (node : Reference) : Prop :=
  w.push.node = node ∨ Apart w.location node

/-- The writes to `node` itself. -/
def writesAt (node : Reference) (ws : List Write) : List Write :=
  ws.filter fun w => decide (w.push.node = node)

theorem mem_writesAt {node : Reference} {ws : List Write} {w : Write} :
    w ∈ writesAt node ws ↔ w ∈ ws ∧ w.push.node = node := by
  simp [writesAt]

theorem mem_keys_inKeyOrder {cs : List Snapshot} {k : Key} :
    k ∈ (inKeyOrder cs).map Prod.fst ↔ k ∈ cs.map Prod.fst := by
  induction cs using List.reverseRecOn with
  | nil => simp [inKeyOrder]
  | append_singleton cs c ih =>
    rw [inKeyOrder_snoc, mem_keys_put, ih, List.map_append, List.mem_append]
    simp [or_comm]

theorem sorted_inKeyOrder (cs : List Snapshot) : Sorted (inKeyOrder cs) := by
  induction cs using List.reverseRecOn with
  | nil => simp [inKeyOrder, Sorted]
  | append_singleton cs c ih =>
    rw [inKeyOrder_snoc]
    exact sorted_put ih

/-- At a node that every write keeps clear stand the records written to it, in key order. -/
theorem childrenAt_tree {node : Reference} {ws : List Write} (h : ∀ w ∈ ws, w.KeepsClear node) :
    (tree ws).childrenAt node = inKeyOrder ((writesAt node ws).map Write.snapshot) := by
  induction ws using List.reverseRecOn with
  | nil =>
    cases node with
    | nil => simp [tree, writesAt, inKeyOrder, Node.childrenAt, Node.empty]
    | cons k r => simp [tree, writesAt, inKeyOrder, Node.childrenAt, Node.empty, get_cons]
  | append_singleton ws w ih =>
    have hbefore := ih fun v hv => h v (List.mem_append_left _ hv)
    rw [tree_snoc, Write.apply_eq, writesAt, List.filter_append]
    by_cases hnode : w.push.node = node
    · rw [Write.location, hnode, childrenAt_set_child, hbefore]
      simp [hnode, writesAt, inKeyOrder_snoc, Write.snapshot]
    · have hap : Apart w.location node := (h w (by simp)).resolve_left hnode
      rw [childrenAt_set_apart _ _ hap, hbefore]
      simp [hnode, writesAt]

theorem mem_keys_childrenAt_tree {node : Reference} {ws : List Write}
    (h : ∀ w ∈ ws, w.KeepsClear node) {k : Key} :
    k ∈ ((tree ws).childrenAt node).map Prod.fst ↔ ∃ w ∈ ws, w.push.node = node ∧ w.key = k := by
  rw [childrenAt_tree h, mem_keys_inKeyOrder, List.map_map, List.mem_map]
  constructor
  · rintro ⟨w, hw, rfl⟩
    obtain ⟨hmem, hnode⟩ := mem_writesAt.mp hw
    exact ⟨w, hmem, hnode, rfl⟩
  · rintro ⟨w, hmem, hnode, rfl⟩
    exact ⟨w, mem_writesAt.mpr ⟨hmem, hnode⟩, rfl⟩

theorem mem_childrenAt_tree {node : Reference} {ws : List Write} (h : ∀ w ∈ ws, w.KeepsClear node)
    {c : Snapshot} (hc : c ∈ (tree ws).childrenAt node) :
    ∃ w ∈ ws, w.push.node = node ∧ c = w.snapshot := by
  rw [childrenAt_tree h] at hc
  obtain ⟨w, hw, rfl⟩ := List.mem_map.mp (mem_of_mem_inKeyOrder hc)
  obtain ⟨hmem, hnode⟩ := mem_writesAt.mp hw
  exact ⟨w, hmem, hnode, rfl⟩

/-- A node of borrowers is kept clear by every write of the app. -/
theorem keepsClear_borrowers {w : Write} (hw : w.WellPlaced) (u : Uid) :
    w.KeepsClear (borrowersNode u) := by
  unfold Write.KeepsClear Write.location
  rcases hw with ⟨v, name, debt, hw⟩ | ⟨v, name, paid, date, -, hw⟩
  · have hnode : w.push.node = borrowersNode v := congrArg Push.node hw
    by_cases huv : v = u
    · exact Or.inl (huv ▸ hnode)
    · rw [hnode]
      exact Or.inr (by simpa using apart_borrowers_of_ne [w.key] [] huv)
  · have hnode : w.push.node = paymentsNode v name := congrArg Push.node hw
    rw [hnode]
    right
    simpa [paymentsNode] using (apart_borrowers_payments u v [] (components name ++ [w.key])).symm

/-! ## Answers -/

/-- Every write is sent once and gets at most one answer. -/
structure Answers (s : Cloud) : Prop where
  keyed : Keyed s
  pending : s.pending.Nodup
  accepted : s.accepted.Nodup
  rejected : s.rejected.Nodup
  disjoint : ∀ w ∈ s.rejected, w ∉ s.accepted

theorem answers_initial (currentUser : Device → Option Uid) : Answers { currentUser } := by
  refine ⟨keyed_initial currentUser, ?_, ?_, ?_, ?_⟩ <;> simp

theorem nodup_snoc {ws : List Write} {w : Write} (h : ws.Nodup) (hw : w ∉ ws) :
    (ws ++ [w]).Nodup := by
  rw [← List.concat_eq_append]
  exact h.concat hw

theorem Answers.change {names : Set (Uid × String)} {s t : Cloud} (h : Answers s)
    (hc : Change names s.autoIds s t) : Answers t := by
  have hkeyed : Keyed t := h.keyed.change hc
  cases hc with
  | idle currentUser autoIds crashed hids =>
    exact ⟨hkeyed, h.pending, h.accepted, h.rejected, h.disjoint⟩
  | attached o ho => exact ⟨hkeyed, h.pending, h.accepted, h.rejected, h.disjoint⟩
  | sent w hfiled hfresh =>
    have hnew : w ∉ s.pending := fun hw =>
      hfresh (h.keyed.used w (mem_known.mpr (Or.inr (Or.inl hw))))
    exact ⟨hkeyed, nodup_snoc h.pending hnew, h.accepted, h.rejected, h.disjoint⟩
  | accepted w hw =>
    refine ⟨hkeyed, h.pending.filter _, nodup_snoc h.accepted (h.keyed.notAccepted w hw),
      h.rejected, ?_⟩
    intro v hv hacc
    rcases List.mem_append.mp hacc with hacc | hacc
    · exact h.disjoint v hv hacc
    · rw [List.mem_singleton] at hacc
      exact h.keyed.notRejected w hw (hacc ▸ hv)
  | rejected w hw =>
    refine ⟨hkeyed, h.pending.filter _, h.accepted,
      nodup_snoc h.rejected (h.keyed.notRejected w hw), ?_⟩
    intro v hv hacc
    rcases List.mem_append.mp hv with hv | hv
    · exact h.disjoint v hv hacc
    · rw [List.mem_singleton] at hv
      exact h.keyed.notAccepted w hw (hv ▸ hacc)
  | delivered i o e rest controller ho hinbox hreceive =>
    exact ⟨hkeyed, h.pending, h.accepted, h.rejected, h.disjoint⟩

/-! ## What the observers are told -/

/-- The snapshot of an event that the app observes. -/
def ChildEvent.added : ChildEvent → Option Snapshot
  | .childAdded snapshot => some snapshot
  | .childRemoved _ => none

/-- The snapshots in the inbox. -/
def Observer.awaited (o : Observer) : List Snapshot := o.inbox.filterMap ChildEvent.added

/-- What the list of an observer has read, and what is still to come. -/
def Observer.feed (o : Observer) (read : List Snapshot) : List Snapshot := read ++ o.awaited

theorem filterMap_added (cs : List Snapshot) :
    (cs.map ChildEvent.childAdded).filterMap ChildEvent.added = cs := by
  simp [List.filterMap_map, Function.comp_def, ChildEvent.added]

theorem awaited_notify (o : Observer) (old new : Database) :
    (o.notify old new).awaited =
      o.awaited ++ addedChildren (old.childrenAt o.node) (new.childrenAt o.node) := by
  have hremoved : ∀ cs : List Snapshot,
      (cs.map fun c => ChildEvent.childRemoved c.1).filterMap ChildEvent.added = [] := by
    intro cs
    simp [ChildEvent.added]
  unfold Observer.awaited Observer.notify childEvents
  rw [List.filterMap_append, List.filterMap_append, hremoved, filterMap_added, List.nil_append]

theorem feed_notify (o : Observer) (old new : Database) (read : List Snapshot) :
    (o.notify old new).feed read =
      o.feed read ++ addedChildren (old.childrenAt o.node) (new.childrenAt o.node) := by
  rw [Observer.feed, awaited_notify, Observer.feed, List.append_assoc]

/-- A way to say which snapshots a controller has read: a new one has read none,
and it reads each snapshot that it is called with. -/
structure Reading (R : List Snapshot → ListController → Prop) : Prop where
  table : R [] (.borrowers {})
  list : ∀ b, R [] (.payments { borrowerAtIndex := some b })
  receive : ∀ {read controller e controller'}, R read controller →
    controller.receive e = .ok controller' → R (read ++ e.added.toList) controller'

/-- An observer after a change from `s` to `t`: its feed has grown by what is new at its node. -/
structure Told (R : List Snapshot → ListController → Prop) (s t : Cloud) (o o' : Observer) :
    Prop where
  device : o'.device = o.device
  node : o'.node = o.node
  isTable : o'.controller.isTable = o.controller.isTable
  feed : ∀ read, R read o.controller → ∃ read', R read' o'.controller ∧
    o'.feed read' = o.feed read ++
      addedChildren ((s.view o.device).childrenAt o.node) ((t.view o.device).childrenAt o.node)

/-- A new observer has read nothing, and is told all that stands at its node. -/
structure Attaches (R : List Snapshot → ListController → Prop) (t : Cloud) (o : Observer) : Prop where
  read : R [] o.controller
  inbox : o.inbox = ((t.view o.device).childrenAt o.node).map .childAdded

/-- The observers of `s` stay in their order and are told what is new, and at most
one is attached. -/
structure Tells (R : List Snapshot → ListController → Prop) (s t : Cloud) : Prop where
  old : ∀ (i : Nat) (o : Observer), s.observers[i]? = some o →
    ∃ o', t.observers[i]? = some o' ∧ Told R s t o o'
  new : ∀ (i : Nat) (o' : Observer), t.observers[i]? = some o' → s.observers.length ≤ i →
    i = s.observers.length ∧ Attaches R t o'

section Tells
variable {R : List Snapshot → ListController → Prop} {names : Set (Uid × String)}
  {used : List Key} {s t : Cloud} {i : Nat} {o o' : Observer}

/-- An observer of the second cloud was there before, or it is the new one. -/
theorem Tells.cases (h : Tells R s t) (ho' : t.observers[i]? = some o') :
    (∃ o, s.observers[i]? = some o ∧ Told R s t o o') ∨
      i = s.observers.length ∧ Attaches R t o' := by
  rcases ho : s.observers[i]? with _ | o
  · exact Or.inr (h.new i o' ho' (List.getElem?_eq_none_iff.mp ho))
  · obtain ⟨o'', ho'', htold⟩ := h.old i o ho
    obtain rfl : o' = o'' := Option.some.inj (ho'.symm.trans ho'')
    exact Or.inl ⟨o, rfl, htold⟩

/-- Where the view stays the same, nothing is new. -/
theorem told_of_view (hdevice : o'.device = o.device) (hnode : o'.node = o.node)
    (htable : o'.controller.isTable = o.controller.isTable)
    (hview : t.view o.device = s.view o.device)
    (hfeed : ∀ read, R read o.controller →
      ∃ read', R read' o'.controller ∧ o'.feed read' = o.feed read) : Told R s t o o' := by
  refine ⟨hdevice, hnode, htable, ?_⟩
  intro read hread
  rw [hview, addedChildren_self, List.append_nil]
  exact hfeed read hread

theorem told_self (hview : t.view o.device = s.view o.device) : Told R s t o o :=
  told_of_view rfl rfl rfl hview fun read hread => ⟨read, hread, rfl⟩

theorem told_notify (o : Observer) : Told R s t o (o.notify (s.view o.device) (t.view o.device)) :=
  ⟨rfl, rfl, rfl, fun read hread => ⟨read, hread, feed_notify o _ _ read⟩⟩

/-- The observers and the views stay as they are. -/
theorem tells_of_same (hobservers : t.observers = s.observers) (hview : ∀ d, t.view d = s.view d) :
    Tells R s t := by
  refine ⟨?_, ?_⟩
  · intro i o ho
    exact ⟨o, hobservers ▸ ho, told_self (hview o.device)⟩
  · intro i o' ho' hi
    rw [hobservers, List.getElem?_eq_none hi] at ho'
    cases ho'

theorem tells_notifyAll (hobservers : t.observers = s.observers) : Tells R s (t.notifyAll s) := by
  refine ⟨?_, ?_⟩
  · intro i o ho
    refine ⟨o.notify (s.view o.device) (t.view o.device), ?_, told_notify o⟩
    simp [Cloud.notifyAll, hobservers, ho]
  · intro i o' ho' hi
    simp [Cloud.notifyAll, hobservers, List.getElem?_eq_none hi] at ho'

theorem tells_append (ho : Attaches R s o) :
    Tells R s { s with observers := s.observers ++ [o] } := by
  refine ⟨?_, ?_⟩
  · intro i o₀ ho₀
    have hlt : i < s.observers.length := (List.getElem?_eq_some_iff.mp ho₀).1
    refine ⟨o₀, ?_, told_self (by rfl)⟩
    rw [List.getElem?_append_left hlt]
    exact ho₀
  · intro i o' ho' hi
    have hlt := (List.getElem?_eq_some_iff.mp ho').1
    obtain rfl : i = s.observers.length := by
      rw [List.length_append, List.length_singleton] at hlt
      omega
    obtain rfl : o = o' := by simpa using ho'
    exact ⟨rfl, ho.read, ho.inbox⟩

/-- One observer changes, and the views stay as they are. -/
theorem tells_set (ho : s.observers[i]? = some o)
    (htold : Told R s { s with observers := s.observers.set i o' } o o') :
    Tells R s { s with observers := s.observers.set i o' } := by
  have hlt : i < s.observers.length := (List.getElem?_eq_some_iff.mp ho).1
  refine ⟨?_, ?_⟩
  · intro j o₀ ho₀
    by_cases hij : i = j
    · subst hij
      obtain rfl : o = o₀ := Option.some.inj (ho.symm.trans ho₀)
      exact ⟨o', List.getElem?_set_self hlt, htold⟩
    · refine ⟨o₀, ?_, told_self (by rfl)⟩
      rw [List.getElem?_set_ne hij]
      exact ho₀
  · intro j o₀ ho₀ hj
    rw [List.getElem?_eq_none (by simpa using hj)] at ho₀
    cases ho₀

/-- What an event does to a list that takes it: a removal nothing, a child adds
the borrower or the payment that it holds. -/
inductive Receives : ListController → ChildEvent → ListController → Prop
  | removed (controller : ListController) (k : Key) :
      Receives controller (.childRemoved k) controller
  | borrower (vc : BorrowersTableViewController) {c : Snapshot} {b : Borrower}
      (hadded : borrowerAdded c = .ok b) :
      Receives (.borrowers vc) (.childAdded c) (.borrowers (vc.childAdded b))
  | payment (vc : PaymentsTableViewController) {c : Snapshot} {payment : Payment}
      (hadded : paymentAdded c = .ok payment) : Receives (.payments vc) (.childAdded c)
        (.payments { vc with payments := vc.payments ++ [payment] })

theorem receive_eq_ok {controller controller' : ListController} {e : ChildEvent} :
    controller.receive e = .ok controller' ↔ Receives controller e controller' := by
  constructor
  · intro h
    cases e with
    | childRemoved k =>
      cases h
      exact .removed controller k
    | childAdded c =>
      rcases controller with vc | vc
      · rcases hadded : borrowerAdded c with fault | b
        · simp [ListController.receive, hadded, bind, Except.bind] at h
        · simp only [ListController.receive, hadded, bind, Except.bind, pure, Except.pure,
            Except.ok.injEq] at h
          exact h ▸ .borrower vc hadded
      · rcases hvc : vc.childAdded c with fault | vc'
        · simp [ListController.receive, hvc, bind, Except.bind] at h
        · simp only [ListController.receive, hvc, bind, Except.bind, pure, Except.pure,
            Except.ok.injEq] at h
          obtain ⟨payment, hadded, rfl⟩ := vc.childAdded_eq_ok.mp hvc
          exact h ▸ .payment vc hadded
  · intro h
    cases h with
    | removed k => rfl
    | borrower vc hadded =>
      rw [ListController.receive, hadded]
      rfl
    | payment vc hadded =>
      have hvc := vc.childAdded_eq_ok.mpr ⟨_, hadded, rfl⟩
      rw [ListController.receive, hvc]
      rfl

theorem Receives.isTable {controller controller' : ListController} {e : ChildEvent}
    (h : Receives controller e controller') : controller'.isTable = controller.isTable := by
  cases h <;> rfl

/-- A delivery moves a snapshot from the inbox to what was read. -/
theorem feed_receive {e : ChildEvent} {rest : List ChildEvent} (hinbox : o.inbox = e :: rest)
    (controller : ListController) (read : List Snapshot) :
    Observer.feed { o with controller, inbox := rest } (read ++ e.added.toList) = o.feed read := by
  rw [Observer.feed, Observer.feed, Observer.awaited, Observer.awaited, hinbox, List.append_assoc]
  cases e <;> rfl

theorem told_receive (hR : Reading R) {e : ChildEvent} {rest : List ChildEvent}
    {controller : ListController} (hinbox : o.inbox = e :: rest)
    (hreceive : o.controller.receive e = .ok controller)
    (hview : t.view o.device = s.view o.device) :
    Told R s t o { o with controller, inbox := rest } := by
  apply told_of_view (by rfl) (by rfl) (receive_eq_ok.mp hreceive).isTable hview
  intro read hread
  exact ⟨_, hR.receive hread hreceive, feed_receive hinbox controller read⟩

theorem Observer.IsNew.attaches (hR : Reading R) (h : o.IsNew names s) : Attaches R s o := by
  refine ⟨?_, h.inbox⟩
  rcases h.placed with ⟨hempty, -⟩ | ⟨u, b, -, hlist, -⟩
  · rw [hempty]
    exact hR.table
  · rw [hlist]
    exact hR.list b

/-- Every change tells the observers what is new at their nodes. -/
theorem Change.tells (hR : Reading R) (hc : Change names used s t) : Tells R s t := by
  cases hc with
  | idle currentUser autoIds crashed hids => exact tells_of_same (by rfl) fun _ => rfl
  | attached o ho => exact tells_append (ho.attaches hR)
  | sent w hfiled hfresh => exact tells_notifyAll (by rfl)
  | accepted w hw => exact tells_notifyAll (by rfl)
  | rejected w hw => exact tells_notifyAll (by rfl)
  | delivered i o e rest controller ho hinbox hreceive =>
    exact tells_set ho (told_receive hR hinbox hreceive (by rfl))

/-- So does every step, also with a key that was given before. -/
theorem tells_apply (hR : Reading R) (s : Cloud) (a : CloudStep) : Tells R s (a.apply s) := by
  have hchange : Change Set.univ [] s (a.apply s) :=
    change_apply (fun _ _ => List.not_mem_nil) fun _ _ => trivial
  exact hchange.tells hR

end Tells

/-! ## The feed of an observer -/

/-- The feed of an observer against the writes of the cloud. A record that the
server has not accepted is in the feed of its own device only. -/
structure Fed (s : Cloud) (o : Observer) (read : List Snapshot) : Prop where
  nodup : ((o.feed read).map Prod.fst).Nodup
  covers : ∀ w ∈ s.visible o.device, w.push.node = o.node → w.snapshot ∈ o.feed read
  stems : ∀ c ∈ o.feed read, ∃ w ∈ s.known, w.push.node = o.node ∧ c = w.snapshot
  own : ∀ c ∈ o.feed read, ∀ w ∈ s.pending ++ s.rejected, w.key = c.1 → w.device = o.device

/-- From `s` to `t` no write is forgotten, and one that comes into the view of a
device is new to the feeds on it. -/
structure Advances (s t : Cloud) : Prop where
  known : ∀ w ∈ s.known, w ∈ t.known
  unseen : ∀ o read, Fed s o read → ∀ w ∈ t.visible o.device, w ∉ s.visible o.device →
    w.key ∉ (o.feed read).map Prod.fst
  own : ∀ o read, Fed s o read → ∀ c ∈ o.feed read, ∀ w ∈ t.pending ++ t.rejected,
    w.key = c.1 → w.device = o.device

section Fed
variable {names : Set (Uid × String)} {s t : Cloud} {o o' : Observer} {read read' : List Snapshot}

/-- The feed stays faithful when it grows by what is new at its node. -/
theorem Fed.grow (h : Fed s o read) (hadvances : Advances s t) (ht : Answers t)
    (hclear : ∀ w ∈ t.known, w.KeepsClear o.node) (hdevice : o'.device = o.device)
    (hnode : o'.node = o.node) (hfeed : o'.feed read' = o.feed read ++
      addedChildren ((s.view o.device).childrenAt o.node) ((t.view o.device).childrenAt o.node)) :
    Fed t o' read' := by
  have hbefore : ∀ w ∈ s.visible o.device, w.KeepsClear o.node := fun w hw =>
    hclear w (hadvances.known w (mem_known_of_mem_visible hw))
  have hafter : ∀ w ∈ t.visible o.device, w.KeepsClear o.node := fun w hw =>
    hclear w (mem_known_of_mem_visible hw)
  have hunique := ht.keyed.unique
  -- What is added comes from a write that was not visible before.
  have hadded : ∀ c ∈ addedChildren ((s.view o.device).childrenAt o.node)
      ((t.view o.device).childrenAt o.node), ∃ w ∈ t.visible o.device,
        w ∉ s.visible o.device ∧ w.push.node = o.node ∧ c = w.snapshot := by
    intro c hc
    obtain ⟨hmem, hfresh⟩ := mem_addedChildren.mp hc
    obtain ⟨w, hw, hwnode, rfl⟩ := mem_childrenAt_tree hafter hmem
    refine ⟨w, hw, fun hold => hfresh ?_, hwnode, rfl⟩
    exact (mem_keys_childrenAt_tree hbefore).mpr ⟨w, hold, hwnode, rfl⟩
  refine ⟨?_, ?_, ?_, ?_⟩
  · rw [hfeed, List.map_append, List.nodup_append]
    refine ⟨h.nodup, ?_, ?_⟩
    · have hnodup : (((t.view o.device).childrenAt o.node).map Prod.fst).Nodup := by
        rw [Cloud.view, childrenAt_tree hafter]
        exact (sorted_inKeyOrder _).nodup
      exact hnodup.sublist (List.filter_sublist.map Prod.fst)
    · rintro k hk j hj rfl
      obtain ⟨c, hc, rfl⟩ := List.mem_map.mp hj
      obtain ⟨w, hw, hold, -, rfl⟩ := hadded c hc
      exact hadvances.unseen o read h w hw hold hk
  · rw [hdevice, hnode, hfeed]
    intro w hw hwnode
    have hwt := mem_known_of_mem_visible hw
    rw [List.mem_append]
    by_cases hold : w.key ∈ ((s.view o.device).childrenAt o.node).map Prod.fst
    · obtain ⟨v, hv, hvnode, hkey⟩ := (mem_keys_childrenAt_tree hbefore).mp hold
      have hvw : v = w :=
        hunique v (hadvances.known v (mem_known_of_mem_visible hv)) w hwt hkey
      exact Or.inl (h.covers w (hvw ▸ hv) hwnode)
    · right
      obtain ⟨c, hc, hkey⟩ := List.mem_map.mp
        ((mem_keys_childrenAt_tree hafter).mpr ⟨w, hw, hwnode, rfl⟩)
      obtain ⟨v, hv, -, rfl⟩ := mem_childrenAt_tree hafter hc
      have hvw : v = w := hunique v (mem_known_of_mem_visible hv) w hwt hkey
      subst hvw
      exact mem_addedChildren.mpr ⟨hc, hold⟩
  · rw [hnode, hfeed]
    intro c hc
    rcases List.mem_append.mp hc with hc | hc
    · obtain ⟨w, hw, hrest⟩ := h.stems c hc
      exact ⟨w, hadvances.known w hw, hrest⟩
    · obtain ⟨w, hw, -, hrest⟩ := hadded c hc
      exact ⟨w, mem_known_of_mem_visible hw, hrest⟩
  · rw [hdevice, hfeed]
    intro c hc w hw hkey
    rcases List.mem_append.mp hc with hc | hc
    · exact hadvances.own o read h c hc w hw hkey
    · obtain ⟨v, hv, -, -, rfl⟩ := hadded c hc
      have hwt : w ∈ t.known := by
        rw [mem_known]
        exact Or.inr (List.mem_append.mp hw)
      have hwv : w = v := hunique w hwt v (mem_known_of_mem_visible hv) hkey
      subst hwv
      rcases mem_visible.mp hv with hacc | hpend
      · rcases List.mem_append.mp hw with hw | hw
        · exact absurd hacc (ht.keyed.notAccepted w hw)
        · exact absurd hacc (ht.disjoint w hw)
      · exact hpend.2

/-- A new observer has read nothing, and all that stands at its node is still to come. -/
theorem fed_new (ht : Answers t) (hclear : ∀ w ∈ t.known, w.KeepsClear o.node)
    (hinbox : o.inbox = ((t.view o.device).childrenAt o.node).map .childAdded) : Fed t o [] := by
  -- Its feed has grown from the empty one over the empty database.
  have hempty : Fed {} { o with inbox := [] } [] := by
    refine ⟨?_, ?_, ?_, ?_⟩ <;> simp [Observer.feed, Observer.awaited, Cloud.visible]
  have hadvances : Advances {} t := by
    have hnone : ∀ o read, Fed {} o read → o.feed read = [] := by
      intro o read hfed
      rw [List.eq_nil_iff_forall_not_mem]
      intro c hc
      obtain ⟨w, hw, -⟩ := hfed.stems c hc
      simp [Cloud.known] at hw
    refine ⟨by simp [Cloud.known], ?_, ?_⟩
    · intro o read hfed w _ _ hk
      simp [hnone o read hfed] at hk
    · intro o read hfed c hc
      simp [hnone o read hfed] at hc
  refine hempty.grow hadvances ht hclear rfl rfl ?_
  have hnothing : (({} : Cloud).view o.device).childrenAt o.node = [] := by
    have htree : (tree []).childrenAt o.node = inKeyOrder ((writesAt o.node []).map _) :=
      childrenAt_tree (by simp)
    simpa [Cloud.view, Cloud.visible, writesAt, inKeyOrder] using htree
  simp only [Observer.feed, Observer.awaited, hinbox, filterMap_added, hnothing, List.nil_append,
    List.filterMap_nil]
  simp [addedChildren]

/-! ## What the writes of a step do to the feeds -/

theorem advances_of_same (haccepted : t.accepted = s.accepted) (hpending : t.pending = s.pending)
    (hrejected : t.rejected = s.rejected) : Advances s t := by
  have hvisible : ∀ d, t.visible d = s.visible d := fun d => by
    rw [Cloud.visible, haccepted, hpending, Cloud.visible]
  refine ⟨?_, ?_, ?_⟩
  · intro w hw
    rw [Cloud.known, haccepted, hpending, hrejected]
    exact hw
  · intro o read _ w hw hold
    exact absurd (hvisible o.device ▸ hw) hold
  · intro o read hfed
    rw [hpending, hrejected]
    exact hfed.own

/-- A new write has a key that no feed holds. -/
theorem Keyed.advances_sent (hs : Keyed s) {w : Write} (hsent : Sent s t w) : Advances s t := by
  have hunseen : ∀ o read, Fed s o read → ∀ c ∈ o.feed read, c.1 ≠ w.key := by
    intro o read hfed c hc hkey
    obtain ⟨v, hv, -, rfl⟩ := hfed.stems c hc
    exact hsent.fresh (hkey ▸ hs.used v hv)
  refine ⟨fun v hv => (hsent.mem_known v).mpr (Or.inl hv), ?_, ?_⟩
  · intro o read hfed v hv hold hk
    rw [mem_visible, hsent.accepted, hsent.pending, List.mem_append, List.mem_singleton] at hv
    rw [mem_visible] at hold
    have hvw : v = w := by grind
    obtain ⟨c, hc, hkey⟩ := List.mem_map.mp hk
    exact hunseen o read hfed c hc (hvw ▸ hkey)
  · intro o read hfed c hc v hv hkey
    rw [hsent.pending, hsent.rejected] at hv
    simp only [List.append_assoc, List.mem_append, List.mem_singleton] at hv
    rcases hv with hv | rfl | hv
    · exact hfed.own c hc v (List.mem_append_left _ hv) hkey
    · exact absurd hkey.symm (hunseen o read hfed c hc)
    · exact hfed.own c hc v (List.mem_append_right _ hv) hkey

/-- An answer makes a write visible only where no feed holds it. -/
theorem Keyed.advances_answered (hs : Keyed s) {w : Write} (ha : Answered s t w) : Advances s t := by
  refine ⟨fun v hv => (ha.mem_known hs v).mpr hv, ?_, ?_⟩
  · intro o read hfed v hv hold hk
    rw [mem_visible, ha.pending, mem_others] at hv
    rw [mem_visible] at hold
    have hvw : v = w := by
      rcases ha.answer with ⟨heq, -⟩ | ⟨heq, -⟩
      · rw [heq, List.mem_append, List.mem_singleton] at hv
        grind
      · rw [heq] at hv
        grind
    subst hvw
    obtain ⟨c, hc, hkey⟩ := List.mem_map.mp hk
    exact hold (Or.inr ⟨ha.mem, hfed.own c hc v (List.mem_append_left _ ha.mem) hkey.symm⟩)
  · intro o read hfed c hc v hv hkey
    apply hfed.own c hc v _ hkey
    rw [ha.pending, List.mem_append, mem_others] at hv
    rw [List.mem_append]
    rcases hv with hv | hv
    · exact Or.inl hv.1
    · rcases ha.answer with ⟨-, heq⟩ | ⟨-, heq⟩
      · exact Or.inr (heq ▸ hv)
      · rw [heq, List.mem_append, List.mem_singleton] at hv
        rcases hv with hv | rfl
        · exact Or.inr hv
        · exact Or.inl ha.mem

theorem Change.advances (hc : Change names s.autoIds s t) (hs : Keyed s) : Advances s t := by
  cases hc with
  | idle currentUser autoIds crashed hids => exact advances_of_same (by rfl) (by rfl) (by rfl)
  | attached o ho => exact advances_of_same (by rfl) (by rfl) (by rfl)
  | sent w hfiled hfresh => exact hs.advances_sent ⟨hfiled.wellPlaced, hfresh, rfl, rfl, rfl, rfl⟩
  | accepted w hw => exact hs.advances_answered ⟨hw, rfl, Or.inl ⟨rfl, rfl⟩, rfl⟩
  | rejected w hw => exact hs.advances_answered ⟨hw, rfl, Or.inr ⟨rfl, rfl⟩, rfl⟩
  | delivered i o e rest controller ho hinbox hreceive =>
    exact advances_of_same (by rfl) (by rfl) (by rfl)

end Fed

/-! ## The feeds of a whole run -/

/-- The controller holds what it decoded from the snapshots that it read, in this order. -/
def ListController.HasRead (read : List Snapshot) : ListController → Prop
  | .borrowers vc => read.map borrowerAdded = vc.borrowers.map .ok
  | .payments vc => read.map paymentAdded = vc.payments.map .ok

theorem reading_hasRead : Reading ListController.HasRead where
  table := rfl
  list _ := rfl
  receive {read controller e controller'} h hreceive := by
    cases receive_eq_ok.mp hreceive with
    | removed k => simpa [ChildEvent.added] using h
    | @borrower vc c b hadded =>
      have hread : read.map borrowerAdded = vc.borrowers.map .ok := h
      simp [ListController.HasRead, ChildEvent.added, hread, hadded]
    | @payment vc c payment hadded =>
      have hread : read.map paymentAdded = vc.payments.map .ok := h
      simp [ListController.HasRead, ChildEvent.added, hread, hadded]

/-- A table of an account, or a list of payments through one of its `names`. -/
def Observer.Attached (names : Set (Uid × String)) (o : Observer) : Prop :=
  (o.controller.isTable = true ∧ ∃ u, o.node = borrowersNode u) ∨
    (o.controller.isTable = false ∧ ∃ u name, (u, name) ∈ names ∧ o.node = paymentsNode u name)

/-- Every record is filed, every observer is attached, and each one whose node
the writes keep clear is fed. -/
structure Feeding (names : Set (Uid × String)) (s : Cloud) : Prop where
  answers : Answers s
  filed : ∀ w ∈ s.known, w.Filed names
  attached : ∀ o ∈ s.observers, o.Attached names
  fed : ∀ o ∈ s.observers, (∀ w ∈ s.known, w.KeepsClear o.node) →
    ∃ read, Fed s o read ∧ o.controller.HasRead read

section Feeding
variable {names : Set (Uid × String)} {s t : Cloud}

theorem feeding_initial (names : Set (Uid × String)) (currentUser : Device → Option Uid) :
    Feeding names { currentUser } :=
  ⟨answers_initial currentUser, by simp [Cloud.known], by simp, by simp⟩

/-- What the observers are told keeps them fed, whatever moves the cloud. -/
theorem Feeding.tells (h : Feeding names s) (htells : Tells ListController.HasRead s t)
    (hadvances : Advances s t) (ht : Answers t) (hfiled : ∀ w ∈ t.known, w.Filed names)
    (hnew : ∀ o, t.observers[s.observers.length]? = some o → o.Attached names) :
    Feeding names t := by
  refine ⟨ht, hfiled, ?_, ?_⟩
  · intro o' ho'
    obtain ⟨i, hi⟩ := List.mem_iff_getElem?.mp ho'
    rcases htells.cases hi with ⟨o, ho, htold⟩ | ⟨rfl, -⟩
    · have hattached := h.attached o (List.mem_of_getElem? ho)
      unfold Observer.Attached at hattached ⊢
      rw [htold.isTable, htold.node]
      exact hattached
    · exact hnew o' hi
  · intro o' ho' hclear
    obtain ⟨i, hi⟩ := List.mem_iff_getElem?.mp ho'
    rcases htells.cases hi with ⟨o, ho, htold⟩ | ⟨-, hattaches⟩
    · rw [htold.node] at hclear
      obtain ⟨read, hfed, hread⟩ := h.fed o (List.mem_of_getElem? ho) fun w hw =>
        hclear w (hadvances.known w hw)
      obtain ⟨read', hread', hfeed⟩ := htold.feed read hread
      exact ⟨read', hfed.grow hadvances ht hclear htold.device htold.node hfeed, hread'⟩
    · exact ⟨[], fed_new ht hclear hattaches.inbox, hattaches.read⟩

theorem Feeding.filed_change (h : Feeding names s) (hc : Change names s.autoIds s t) :
    ∀ w ∈ t.known, w.Filed names := by
  intro w hw
  cases hc with
  | sent v hfiled hfresh =>
    have hsent : Sent s (Cloud.notifyAll { s with
        autoIds := v.key :: s.autoIds, pending := s.pending ++ [v] } s) v :=
      ⟨hfiled.wellPlaced, hfresh, rfl, rfl, rfl, rfl⟩
    rcases (hsent.mem_known w).mp hw with hw | rfl
    · exact h.filed w hw
    · exact hfiled
  | accepted v hv =>
    have ha : Answered s (Cloud.notifyAll { s with
        accepted := s.accepted ++ [v], pending := s.others v.key } s) v :=
      ⟨hv, rfl, Or.inl ⟨rfl, rfl⟩, rfl⟩
    exact h.filed w ((ha.mem_known h.answers.keyed w).mp hw)
  | rejected v hv =>
    have ha : Answered s (Cloud.notifyAll { s with
        rejected := s.rejected ++ [v], pending := s.others v.key } s) v :=
      ⟨hv, rfl, Or.inr ⟨rfl, rfl⟩, rfl⟩
    exact h.filed w ((ha.mem_known h.answers.keyed w).mp hw)
  | _ => exact h.filed w hw

theorem Observer.IsNew.attached {o : Observer} (h : o.IsNew names s) : o.Attached names := by
  rcases h.placed with ⟨hempty, u, hnode⟩ | ⟨u, b, hname, hlist, hnode⟩
  · exact Or.inl ⟨by rw [hempty]; rfl, u, hnode⟩
  · exact Or.inr ⟨by rw [hlist]; rfl, u, b.name, hname, hnode⟩

/-- Only an observer that is attached comes after those of the cloud. -/
theorem Change.attached_new {used : List Key} (hc : Change names used s t) {o : Observer}
    (ho : t.observers[s.observers.length]? = some o) : o.Attached names := by
  cases hc with
  | attached o' ho' =>
    obtain rfl : o' = o := by simpa using ho
    exact ho'.attached
  | _ => simp [Cloud.notifyAll] at ho

theorem Feeding.change (h : Feeding names s) (hc : Change names s.autoIds s t) :
    Feeding names t :=
  h.tells (hc.tells reading_hasRead) (hc.advances h.answers.keyed) (h.answers.change hc)
    (h.filed_change hc) fun _ => hc.attached_new

end Feeding

end SharkCollector
