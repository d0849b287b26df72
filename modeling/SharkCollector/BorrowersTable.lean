-- The borrowers table (BorrowersTableViewController): two arrays, a mode flag
-- and the row that the user tapped. The row count and the cells follow the
-- flag, and `prepare(for:)` does not. The laws say which searches hide this,
-- which arrivals the cached search results miss, and that the rows stay in the
-- bounds of both arrays all the same.
import SharkCollector.Records
import SharkCollector.Runs

namespace SharkCollector

open Runs

/-! ## The search functions -/

/-- The two functions of Foundation that the search uses. -/
structure Foundation where
  lowercased : String → String
  /-- `string.range(of: other)`, as the offsets of its two ends. -/
  range : String → String → Option (Nat × Nat)

/-- The test of the filter closure in `textDidChange`. -/
def Foundation.finds (F : Foundation) (searchText : String) (borrower : Borrower) : Bool :=
  (F.range (F.lowercased borrower.name) (F.lowercased searchText)).isSome

def firstOffset (needle : List Char) : List Char → Nat → Option Nat
  | [], _ => none
  | c :: cs, i => if needle.isPrefixOf (c :: cs) then some i else firstOffset needle cs (i + 1)

/-- The two functions on ASCII strings. The range of an empty string is nil. -/
def asciiFoundation : Foundation where
  lowercased s := String.ofList (s.toList.map Char.toLower)
  range s other :=
    if other = "" then none
    else (firstOffset other.toList s.toList 0).map fun i => (i, i + other.length)

/-! ## The controller -/

/-- The state of the controller, with the text of its search bar and the row
count that its table took at the last `reloadData`. -/
structure BorrowersTableViewController where
  borrowers : List Borrower := []
  filteredBorrowers : List Borrower := []
  shouldShowSearchResults : Bool := false
  indexOfRowUserClicked : Option Nat := none
  searchText : String := ""
  reloadedRows : Nat := 0
deriving DecidableEq, Repr

namespace BorrowersTableViewController

variable (c : BorrowersTableViewController)

def numberOfRowsInSection : Nat :=
  if c.shouldShowSearchResults then c.filteredBorrowers.length else c.borrowers.length

/-- The borrower whose name `cellForRowAt` reads. -/
def borrowerOfRow (row : Nat) : Except Fault Borrower :=
  if c.shouldShowSearchResults then subscript c.filteredBorrowers row
  else subscript c.borrowers row

def cellForRowAt (row : Nat) : Except Fault String := do
  let borrower ← c.borrowerOfRow row
  return borrower.name

def didSelectRowAt (row : Nat) : BorrowersTableViewController :=
  { c with indexOfRowUserClicked := some row }

/-- The borrower that `prepare(for: toBorrowerVC)` passes on. -/
def prepareForBorrowerVC : Except Fault Borrower := do
  let row ← unwrap c.indexOfRowUserClicked
  subscript c.borrowers row

def reloadData : BorrowersTableViewController :=
  { c with reloadedRows := c.numberOfRowsInSection }

/-- The end of the observer in `retrieveBorrowersFromDatabase`. -/
def childAdded (borrower : Borrower) : BorrowersTableViewController :=
  { c with borrowers := c.borrowers ++ [borrower] }.reloadData

def searchBarSearchButtonClicked : BorrowersTableViewController :=
  { c with shouldShowSearchResults := true }.reloadData

def textDidChange (F : Foundation) (searchText : String) : BorrowersTableViewController :=
  let c := { c with searchText, filteredBorrowers := c.borrowers.filter (F.finds searchText) }
  if searchText ≠ "" then { c with shouldShowSearchResults := true }.reloadData
  else { c with shouldShowSearchResults := false }.reloadData

variable (F : Foundation) (t : String) (b : Borrower)

@[simp] theorem childAdded_borrowers : (c.childAdded b).borrowers = c.borrowers ++ [b] := rfl

@[simp] theorem childAdded_filteredBorrowers :
    (c.childAdded b).filteredBorrowers = c.filteredBorrowers := rfl

@[simp] theorem childAdded_shouldShowSearchResults :
    (c.childAdded b).shouldShowSearchResults = c.shouldShowSearchResults := rfl

@[simp] theorem childAdded_searchText : (c.childAdded b).searchText = c.searchText := rfl

@[simp] theorem searchBarSearchButtonClicked_borrowers :
    c.searchBarSearchButtonClicked.borrowers = c.borrowers := rfl

@[simp] theorem searchBarSearchButtonClicked_filteredBorrowers :
    c.searchBarSearchButtonClicked.filteredBorrowers = c.filteredBorrowers := rfl

@[simp] theorem searchBarSearchButtonClicked_shouldShowSearchResults :
    c.searchBarSearchButtonClicked.shouldShowSearchResults = true := rfl

@[simp] theorem searchBarSearchButtonClicked_searchText :
    c.searchBarSearchButtonClicked.searchText = c.searchText := rfl

/-- The two branches differ in the flag only, and both end with the reload. -/
theorem textDidChange_eq : c.textDidChange F t =
    { c with
      searchText := t
      filteredBorrowers := c.borrowers.filter (F.finds t)
      shouldShowSearchResults := decide (t ≠ "") }.reloadData := by
  unfold textDidChange
  by_cases ht : t = ""
  · simp [ht]
  · simp [ht]

@[simp] theorem textDidChange_borrowers : (c.textDidChange F t).borrowers = c.borrowers := by
  rw [textDidChange_eq]; rfl

@[simp] theorem textDidChange_filteredBorrowers :
    (c.textDidChange F t).filteredBorrowers = c.borrowers.filter (F.finds t) := by
  rw [textDidChange_eq]; rfl

@[simp] theorem textDidChange_shouldShowSearchResults :
    (c.textDidChange F t).shouldShowSearchResults = decide (t ≠ "") := by
  rw [textDidChange_eq]; rfl

@[simp] theorem textDidChange_indexOfRowUserClicked :
    (c.textDidChange F t).indexOfRowUserClicked = c.indexOfRowUserClicked := by
  rw [textDidChange_eq]; rfl

@[simp] theorem textDidChange_reloadedRows :
    (c.textDidChange F t).reloadedRows = (c.textDidChange F t).numberOfRowsInSection := by
  rw [textDidChange_eq]; rfl

@[simp] theorem textDidChange_searchText : (c.textDidChange F t).searchText = t := by
  rw [textDidChange_eq]; rfl

end BorrowersTableViewController

/-- What can happen to the controller. -/
inductive TableEvent where
  | childAdded (borrower : Borrower)
  | textDidChange (searchText : String)
  | searchBarSearchButtonClicked
  | didSelectRowAt (row : Nat)
deriving DecidableEq, Repr

def TableEvent.handle (F : Foundation) (c : BorrowersTableViewController) :
    TableEvent → BorrowersTableViewController
  | .childAdded b => c.childAdded b
  | .textDidChange t => c.textDidChange F t
  | .searchBarSearchButtonClicked => c.searchBarSearchButtonClicked
  | .didSelectRowAt row => c.didSelectRowAt row

open BorrowersTableViewController

/-- No event takes a borrower out of the table or moves it. -/
theorem borrowers_prefix_handle (F : Foundation) (c : BorrowersTableViewController)
    (e : TableEvent) : c.borrowers <+: (e.handle F c).borrowers := by
  cases e with
  | childAdded b => exact List.prefix_append _ _
  | textDidChange t => simp [TableEvent.handle]
  | searchBarSearchButtonClicked => simp [TableEvent.handle]
  | didSelectRowAt row => exact List.prefix_rfl

theorem borrowers_prefix_exec (F : Foundation) (later : List TableEvent)
    (c : BorrowersTableViewController) :
    c.borrowers <+: (exec (TableEvent.handle F) c later).borrowers := by
  induction later generalizing c with
  | nil => exact List.prefix_rfl
  | cons e es ih => exact (borrowers_prefix_handle F c e).trans (ih _)

/-! ## The filtered array -/

/-- The array that the flag picks. -/
def shownBorrowers (c : BorrowersTableViewController) : List Borrower :=
  if c.shouldShowSearchResults then c.filteredBorrowers else c.borrowers

theorem numberOfRowsInSection_eq (c : BorrowersTableViewController) :
    c.numberOfRowsInSection = (shownBorrowers c).length := by
  unfold numberOfRowsInSection shownBorrowers
  split <;> rfl

theorem borrowerOfRow_eq (c : BorrowersTableViewController) (row : Nat) :
    c.borrowerOfRow row = subscript (shownBorrowers c) row := by
  unfold borrowerOfRow shownBorrowers
  split <;> rfl

theorem borrowerOfRow_of_lt {c : BorrowersTableViewController} {row : Nat}
    (hrow : row < (shownBorrowers c).length) :
    c.borrowerOfRow row = .ok (shownBorrowers c)[row] := by
  rw [borrowerOfRow_eq, subscript_eq_ok, List.getElem?_eq_getElem hrow]

theorem cellForRowAt_of_lt {c : BorrowersTableViewController} {row : Nat}
    (hrow : row < (shownBorrowers c).length) :
    c.cellForRowAt row = .ok (shownBorrowers c)[row].name := by
  unfold cellForRowAt
  rw [borrowerOfRow_of_lt hrow]
  rfl

/-- The filtered array is an order-preserving part of the borrowers. -/
def FilteredIsSublist (c : BorrowersTableViewController) : Prop :=
  c.filteredBorrowers.Sublist c.borrowers

theorem filteredIsSublist_initial : FilteredIsSublist {} := List.Sublist.slnil

theorem filteredIsSublist_handle (F : Foundation) (c : BorrowersTableViewController)
    (e : TableEvent) (h : FilteredIsSublist c) : FilteredIsSublist (e.handle F c) := by
  cases e with
  | childAdded b => exact h.trans (List.sublist_append_left _ _)
  | textDidChange t => simp [FilteredIsSublist, TableEvent.handle]
  | searchBarSearchButtonClicked => exact h
  | didSelectRowAt row => exact h

/-! ## Row selection -/

/-- A tap on a displayed row passes on the borrower whose name the row shows. -/
def SelectsWhatItShows (c : BorrowersTableViewController) : Prop :=
  ∀ row < c.numberOfRowsInSection, ∃ b : Borrower, c.borrowerOfRow row = .ok b ∧
    c.cellForRowAt row = .ok b.name ∧ (c.didSelectRowAt row).prepareForBorrowerVC = .ok b

/-- The search results that a search shows stand at the head of the borrowers. -/
def ShowsLeading (c : BorrowersTableViewController) : Prop :=
  c.shouldShowSearchResults = true → c.filteredBorrowers <+: c.borrowers

theorem selects_iff_getElem? (c : BorrowersTableViewController) :
    SelectsWhatItShows c ↔
      ∀ row < (shownBorrowers c).length, c.borrowers[row]? = (shownBorrowers c)[row]? := by
  unfold SelectsWhatItShows
  rw [numberOfRowsInSection_eq]
  refine forall_congr' fun row => forall_congr' fun hrow => ?_
  have hshown : (shownBorrowers c)[row]? = some (shownBorrowers c)[row] :=
    List.getElem?_eq_getElem hrow
  have hprep : ∀ b, (c.didSelectRowAt row).prepareForBorrowerVC = .ok b ↔ c.borrowers[row]? = some b :=
    fun b => subscript_eq_ok
  constructor
  · rintro ⟨b, hb, _, hsel⟩
    rw [borrowerOfRow_eq, subscript_eq_ok] at hb
    rw [(hprep b).mp hsel, hb]
  · intro h
    exact ⟨(shownBorrowers c)[row], borrowerOfRow_of_lt hrow, cellForRowAt_of_lt hrow,
      (hprep _).mpr (h.trans hshown)⟩

theorem selects_iff_showsLeading (c : BorrowersTableViewController) :
    SelectsWhatItShows c ↔ ShowsLeading c := by
  rw [selects_iff_getElem?]
  unfold ShowsLeading shownBorrowers
  cases c.shouldShowSearchResults with
  | false => simp
  | true =>
    simp only [if_true, true_imp_iff, List.prefix_iff_getElem?]
    refine forall_congr' fun row => forall_congr' fun hrow => ?_
    rw [List.getElem?_eq_getElem hrow]

/-- A filter keeps the head of a list when nothing that it keeps comes after
something that it drops. -/
theorem filter_prefix_iff {α : Type} (p : α → Bool) (xs : List α) :
    xs.filter p <+: xs ↔ xs.Pairwise fun a b => p b = true → p a = true := by
  induction xs with
  | nil => simp
  | cons a xs ih =>
    cases ha : p a with
    | true => simp [ha, ih]
    | false =>
      have hne : ∀ ys, a :: ys ≠ xs.filter p := by
        intro ys he
        have hmem : a ∈ xs.filter p := he ▸ List.mem_cons_self
        simp [ha] at hmem
      rw [List.filter_cons_of_neg (by simp [ha]), List.prefix_cons_iff, List.pairwise_cons]
      constructor
      · rintro (hnil | ⟨t, ht, _⟩)
        · have hnone : ∀ b ∈ xs, p b = false := by simpa [List.filter_eq_nil_iff] using hnil
          refine ⟨fun b hb hpb => by simp [hnone b hb] at hpb, ?_⟩
          exact List.pairwise_of_forall_mem_list fun b _ d hd hpd => by simp [hnone d hd] at hpd
        · exact absurd ht.symm (hne t)
      · rintro ⟨hnone, _⟩
        left
        rw [List.filter_eq_nil_iff]
        intro b hb hpb
        simpa [ha] using hnone b hb hpb

/-- The step that a search must meet: no borrower that it finds comes after one
that it does not find, so that its results stand at the head of the list. -/
def KeepsLeading (F : Foundation) (c : BorrowersTableViewController) : TableEvent → Prop
  | .textDidChange t =>
    t ≠ "" → c.borrowers.Pairwise fun a b => F.finds t b = true → F.finds t a = true
  | .searchBarSearchButtonClicked => c.filteredBorrowers <+: c.borrowers
  | .childAdded _ => True
  | .didSelectRowAt _ => True

theorem showsLeading_handle_iff (F : Foundation) (c : BorrowersTableViewController)
    (e : TableEvent) (h : ShowsLeading c) : ShowsLeading (e.handle F c) ↔ KeepsLeading F c e := by
  cases e with
  | childAdded b =>
    simp only [KeepsLeading, iff_true]
    intro hshow
    exact (h hshow).trans (List.prefix_append _ _)
  | textDidChange t =>
    simp [ShowsLeading, KeepsLeading, TableEvent.handle, filter_prefix_iff]
  | searchBarSearchButtonClicked =>
    simp [ShowsLeading, KeepsLeading, TableEvent.handle]
  | didSelectRowAt row =>
    simp only [KeepsLeading, iff_true]
    exact h

/-- In every run, each state passes on the borrower of the tapped row exactly
when each search of the run shows a leading part of the list. -/
theorem a_tap_opens_the_shown_borrower_iff_searches_keep_the_head (F : Foundation)
    (run : List TableEvent) :
    Always (TableEvent.handle F) SelectsWhatItShows {} run ↔
      Each (TableEvent.handle F) (KeepsLeading F) {} run := by
  have hinit : SelectsWhatItShows {} := by simp [selects_iff_showsLeading, ShowsLeading]
  apply always_iff_each (I := fun _ => True) (D := fun _ _ => True) trivial hinit
  · exact fun _ _ _ _ => trivial
  · intro c e _ _ hsel
    rw [selects_iff_showsLeading] at hsel ⊢
    exact showsLeading_handle_iff F c e hsel
  · exact each_true _ _

/-- A search for the second of two borrowers: the row shows Bob, and a tap opens Ann. -/
theorem a_tap_on_a_search_result_opens_another_borrower :
    ¬ Always (TableEvent.handle asciiFoundation) SelectsWhatItShows {}
      [.childAdded ⟨⟨"-K1"⟩, "Ann", "10"⟩, .childAdded ⟨⟨"-K2"⟩, "Bob", "20"⟩,
        .textDidChange "bo"] := by
  intro h
  have hsel := h.last
  obtain ⟨b, hb, -, hprep⟩ := hsel 0 (by decide)
  have hbob : b = ⟨⟨"-K2"⟩, "Bob", "20"⟩ := by
    apply Except.ok.inj
    rw [← hb]
    decide
  have hann : b = ⟨⟨"-K1"⟩, "Ann", "10"⟩ := by
    apply Except.ok.inj
    rw [← hprep]
    decide
  rw [hbob] at hann
  exact absurd hann (by decide)

/-! ## The visible rows -/

/-- The names that the table shows, from the row count and the cells. -/
def visibleNames (c : BorrowersTableViewController) : List (Except Fault String) :=
  (List.range c.numberOfRowsInSection).map c.cellForRowAt

/-- The borrowers that answer a query: all of them for the empty one. -/
def answer (F : Foundation) (borrowers : List Borrower) (q : String) : List Borrower :=
  if q = "" then borrowers else borrowers.filter (F.finds q)

/-- The visible names are the names of the borrowers that answer the search bar's text. -/
def AnswersQuery (F : Foundation) (c : BorrowersTableViewController) : Prop :=
  visibleNames c = (answer F c.borrowers c.searchText).map fun b => .ok b.name

theorem visibleNames_eq (c : BorrowersTableViewController) :
    visibleNames c = (shownBorrowers c).map fun b => .ok b.name := by
  unfold visibleNames
  rw [numberOfRowsInSection_eq]
  apply List.ext_getElem (by simp)
  intro row h1 h2
  have hrow : row < (shownBorrowers c).length := by simpa using h2
  simp [cellForRowAt_of_lt hrow]

/-- The search button takes taps only while the search bar holds a text. -/
def CanHappen (c : BorrowersTableViewController) : TableEvent → Prop
  | .searchBarSearchButtonClicked => c.searchText ≠ ""
  | .didSelectRowAt row => row < c.numberOfRowsInSection
  | .childAdded _ => True
  | .textDidChange _ => True

/-- The flag is set exactly while the search bar holds a text. -/
def FlagFollowsText (c : BorrowersTableViewController) : Prop :=
  c.shouldShowSearchResults = true ↔ c.searchText ≠ ""

theorem flagFollowsText_handle (F : Foundation) (c : BorrowersTableViewController)
    (e : TableEvent) (h : FlagFollowsText c) (he : CanHappen c e) :
    FlagFollowsText (e.handle F c) := by
  cases e with
  | childAdded b => exact h
  | textDidChange t => simp [FlagFollowsText, TableEvent.handle]
  | searchBarSearchButtonClicked =>
    have hq : c.searchText ≠ "" := he
    simp [FlagFollowsText, TableEvent.handle, hq]
  | didSelectRowAt row => exact h

/-- The step that an arrival must meet: a borrower that arrives during a search
is not one that the search finds. -/
def MissesSearch (F : Foundation) (c : BorrowersTableViewController) : TableEvent → Prop
  | .childAdded b => c.searchText ≠ "" → F.finds c.searchText b = false
  | .textDidChange _ => True
  | .searchBarSearchButtonClicked => True
  | .didSelectRowAt _ => True

theorem answersQuery_childAdded_iff (F : Foundation) (c : BorrowersTableViewController)
    (b : Borrower) (hflag : FlagFollowsText c) (h : AnswersQuery F c) :
    AnswersQuery F (c.childAdded b) ↔ MissesSearch F c (.childAdded b) := by
  unfold AnswersQuery at h ⊢
  rw [visibleNames_eq] at h ⊢
  by_cases hq : c.searchText = ""
  · have hoff : c.shouldShowSearchResults = false := by
      simpa [hq] using (not_congr hflag).mpr (by simp [hq])
    simp [shownBorrowers, answer, MissesSearch, hq, hoff]
  · have hon : c.shouldShowSearchResults = true := hflag.mpr hq
    simp only [shownBorrowers, hon, if_true, answer, hq, if_false] at h
    simp only [shownBorrowers, answer, childAdded_borrowers, childAdded_filteredBorrowers,
      childAdded_shouldShowSearchResults, childAdded_searchText, MissesSearch, hq, hon, if_true,
      if_false, List.filter_append, List.map_append, h, ne_eq, not_false_eq_true, true_imp_iff]
    cases hb : F.finds c.searchText b with
    | false => simp [hb]
    | true => simp [hb]

theorem answersQuery_textDidChange (F : Foundation) (c : BorrowersTableViewController)
    (t : String) : AnswersQuery F (c.textDidChange F t) := by
  unfold AnswersQuery
  rw [visibleNames_eq]
  by_cases ht : t = ""
  · simp [ht, shownBorrowers, answer]
  · simp [ht, shownBorrowers, answer]

theorem answersQuery_searchBarSearchButtonClicked (F : Foundation)
    (c : BorrowersTableViewController) (hflag : FlagFollowsText c) (hq : c.searchText ≠ "")
    (h : AnswersQuery F c) : AnswersQuery F c.searchBarSearchButtonClicked := by
  have hon : c.shouldShowSearchResults = true := hflag.mpr hq
  unfold AnswersQuery at h ⊢
  rw [visibleNames_eq] at h ⊢
  simpa [shownBorrowers, hon] using h

/-- In every run, the visible rows answer the query in each state exactly when
no borrower that a search finds arrives during this search. -/
theorem the_rows_answer_the_query_iff_no_match_arrives_during_a_search (F : Foundation)
    (run : List TableEvent) (h : Each (TableEvent.handle F) CanHappen {} run) :
    Always (TableEvent.handle F) (AnswersQuery F) {} run ↔
      Each (TableEvent.handle F) (MissesSearch F) {} run := by
  have hflag : FlagFollowsText {} := by simp [FlagFollowsText]
  have hinit : AnswersQuery F {} := by
    unfold AnswersQuery
    rw [visibleNames_eq]
    simp [shownBorrowers, answer]
  apply always_iff_each hflag hinit (fun c e hc he => flagFollowsText_handle F c e hc he) _ h
  intro c e hc he ha
  cases e with
  | childAdded b => exact answersQuery_childAdded_iff F c b hc ha
  | textDidChange t =>
    exact iff_of_true (answersQuery_textDidChange F c t) trivial
  | searchBarSearchButtonClicked =>
    exact iff_of_true (answersQuery_searchBarSearchButtonClicked F c hc he ha) trivial
  | didSelectRowAt row =>
    exact iff_of_true ha trivial

theorem the_rows_answer_a_search_for_ann_while_bob_arrives :
    Always (TableEvent.handle asciiFoundation) (AnswersQuery asciiFoundation) {}
      [.childAdded ⟨⟨"-K1"⟩, "Ann", "10"⟩, .textDidChange "an", .searchBarSearchButtonClicked,
        .childAdded ⟨⟨"-K2"⟩, "Bob", "20"⟩] :=
  (the_rows_answer_the_query_iff_no_match_arrives_during_a_search asciiFoundation _
    (by simp only [Each, CanHappen]; decide)).mpr (by simp only [Each, MissesSearch]; decide)

/-- Ann arrives during the search that finds her, and the table stays empty. -/
theorem a_match_that_arrives_during_a_search_stays_hidden :
    ¬ (Each (TableEvent.handle asciiFoundation) CanHappen {}
        [.textDidChange "an", .childAdded ⟨⟨"-K1"⟩, "Ann", "10"⟩] →
      Always (TableEvent.handle asciiFoundation) (AnswersQuery asciiFoundation) {}
        [.textDidChange "an", .childAdded ⟨⟨"-K1"⟩, "Ann", "10"⟩]) := by
  intro h
  have hall := h (by simp only [Each, CanHappen]; decide)
  have hlast := hall.last
  have hlen := congrArg List.length hlast
  exact absurd hlen (by decide)

/-! ## Table accesses -/

/-- The table takes taps on the rows that it displays: those that it counted at
its last `reloadData`. -/
def TapsDisplayedRow (c : BorrowersTableViewController) : TableEvent → Prop
  | .didSelectRowAt row => row < c.reloadedRows
  | .childAdded _ => True
  | .textDidChange _ => True
  | .searchBarSearchButtonClicked => True

/-- The accesses of a state to the two arrays are in bounds. -/
structure InBounds (c : BorrowersTableViewController) : Prop where
  filtered : FilteredIsSublist c
  reloaded : c.reloadedRows = c.numberOfRowsInSection
  /-- The cell of a displayed row does not trap. -/
  cell : ∀ row < c.reloadedRows, ∃ name, c.cellForRowAt row = .ok name
  /-- The segue of a tap on a displayed row does not trap. -/
  tap : ∀ row < c.reloadedRows, ∃ b, (c.didSelectRowAt row).prepareForBorrowerVC = .ok b
  /-- A segue with the row of an earlier tap does not trap either. -/
  segue : ∀ row, c.indexOfRowUserClicked = some row → ∃ b, c.prepareForBorrowerVC = .ok b

/-- What every handler keeps. The borrowers only grow, so the row of the last
tap stays an index of them. -/
structure WellIndexed (c : BorrowersTableViewController) : Prop where
  filtered : FilteredIsSublist c
  reloaded : c.reloadedRows = c.numberOfRowsInSection
  clicked : ∀ row, c.indexOfRowUserClicked = some row → row < c.borrowers.length

theorem wellIndexed_initial : WellIndexed {} where
  filtered := filteredIsSublist_initial
  reloaded := rfl
  clicked row hrow := by cases hrow

/-- A displayed row is an index of the borrowers, from whichever array it was counted. -/
theorem WellIndexed.displayed_lt {c : BorrowersTableViewController} (h : WellIndexed c) {row : Nat}
    (hrow : row < c.reloadedRows) : row < c.borrowers.length := by
  rw [h.reloaded] at hrow
  unfold numberOfRowsInSection at hrow
  split at hrow
  · -- The row counts search results, which may be stale but never outnumber the borrowers.
    exact lt_of_lt_of_le hrow h.filtered.length_le
  · exact hrow

theorem WellIndexed.handle {F : Foundation} {c : BorrowersTableViewController} {e : TableEvent}
    (h : WellIndexed c) (he : TapsDisplayedRow c e) : WellIndexed (e.handle F c) := by
  have hfiltered : FilteredIsSublist (e.handle F c) := filteredIsSublist_handle F c e h.filtered
  have hgrown : c.borrowers.length ≤ (e.handle F c).borrowers.length :=
    (borrowers_prefix_handle F c e).length_le
  cases e with
  | childAdded b =>
    refine ⟨hfiltered, rfl, ?_⟩
    intro row hrow
    exact lt_of_lt_of_le (h.clicked row hrow) hgrown
  | textDidChange t =>
    refine ⟨hfiltered, textDidChange_reloadedRows c F t, ?_⟩
    intro row hrow
    simp only [TableEvent.handle, textDidChange_indexOfRowUserClicked] at hrow
    exact lt_of_lt_of_le (h.clicked row hrow) hgrown
  | searchBarSearchButtonClicked =>
    refine ⟨hfiltered, rfl, ?_⟩
    intro row hrow
    exact lt_of_lt_of_le (h.clicked row hrow) hgrown
  | didSelectRowAt row =>
    refine ⟨hfiltered, h.reloaded, ?_⟩
    intro row' hrow'
    obtain rfl : row = row' := Option.some.inj hrow'
    exact h.displayed_lt he

theorem prepareForBorrowerVC_of_lt {c : BorrowersTableViewController} {row : Nat}
    (hclicked : c.indexOfRowUserClicked = some row) (hrow : row < c.borrowers.length) :
    c.prepareForBorrowerVC = .ok c.borrowers[row] := by
  unfold prepareForBorrowerVC
  rw [hclicked]
  exact subscript_eq_ok.mpr (List.getElem?_eq_getElem hrow)

theorem WellIndexed.inBounds {c : BorrowersTableViewController} (h : WellIndexed c) :
    InBounds c where
  filtered := h.filtered
  reloaded := h.reloaded
  cell row hrow := by
    rw [h.reloaded, numberOfRowsInSection_eq] at hrow
    exact ⟨_, cellForRowAt_of_lt hrow⟩
  tap row hrow := by
    have hlt : row < (c.didSelectRowAt row).borrowers.length := h.displayed_lt hrow
    exact ⟨_, prepareForBorrowerVC_of_lt rfl hlt⟩
  segue row hrow := ⟨_, prepareForBorrowerVC_of_lt hrow (h.clicked row hrow)⟩

/-- In every run, no access to the arrays of the table is out of bounds in any
state, however stale the search results are. -/
theorem no_table_access_is_out_of_bounds (F : Foundation) (run : List TableEvent)
    (h : Each (TableEvent.handle F) TapsDisplayedRow {} run) :
    Always (TableEvent.handle F) InBounds {} run := by
  have hindexed : Always (TableEvent.handle F) WellIndexed {} run :=
    always_invariant wellIndexed_initial (fun _ _ hc he => hc.handle he) h
  exact hindexed.mono fun _ hc => hc.inBounds

/-- The search misses the second Bob, and taps on both sides of its end stay in bounds. -/
theorem taps_on_stale_results_stay_in_bounds :
    Always (TableEvent.handle asciiFoundation) InBounds {}
      [.childAdded ⟨⟨"-K1"⟩, "Ann", "10"⟩, .childAdded ⟨⟨"-K2"⟩, "Bob", "20"⟩,
        .textDidChange "bo", .childAdded ⟨⟨"-K3"⟩, "Bob", "30"⟩, .didSelectRowAt 0,
        .searchBarSearchButtonClicked, .textDidChange "", .didSelectRowAt 2] :=
  no_table_access_is_out_of_bounds asciiFoundation _
    (by simp only [Each, TapsDisplayedRow]; decide)

end SharkCollector
