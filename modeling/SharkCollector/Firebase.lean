-- What the app uses of Firebase: references, which are paths of keys, the tree
-- of the database, and the values that its snapshots carry. `child` appends the
-- components of a string and drops the empty ones, so one string can be a path
-- of any length. It raises on the characters that no path may hold.
import SharkCollector.PathTree
import Mathlib.Data.Prod.Lex
import Mathlib.Data.String.Basic

namespace SharkCollector

open PathTree

/-! ## Faults -/

/-- The ways in which the app ends a call: a forced unwrap of nil, a forced
cast, an array index out of range, and the exception of an invalid path. -/
inductive Fault where
  | nilUnwrapped
  | badCast
  | outOfRange
  | invalidPath
deriving DecidableEq, Repr

/-- The forced unwrap `x!`. -/
def unwrap {α : Type} : Option α → Except Fault α
  | some a => .ok a
  | none => .error .nilUnwrapped

@[simp] theorem unwrap_some {α : Type} (a : α) : unwrap (some a) = .ok a := rfl

@[simp] theorem unwrap_none {α : Type} : unwrap (none : Option α) = .error .nilUnwrapped := rfl

/-- An array subscript. -/
def subscript {α : Type} (xs : List α) (i : Nat) : Except Fault α :=
  match xs[i]? with
  | some x => .ok x
  | none => .error .outOfRange

theorem subscript_eq_ok {α : Type} {xs : List α} {i : Nat} {x : α} :
    subscript xs i = .ok x ↔ xs[i]? = some x := by
  unfold subscript
  rcases xs[i]? with _ | y <;> simp

/-! ## Keys -/

/-- A key of the database. -/
structure Key where
  text : String
deriving Repr

def digits (cs : List Char) : Option Int :=
  if cs ≠ [] ∧ cs.all Char.isDigit then
    some (cs.foldl (fun n c => 10 * n + ((c.toNat : Int) - 48)) 0)
  else none

/-- The number of a key that reads as a 32-bit integer. -/
def Key.number (k : Key) : Option Int :=
  let n := match k.text.toList with
    | '-' :: cs => (digits cs).map (- ·)
    | cs => digits cs
  n.filter fun i => -2147483648 ≤ i ∧ i < 2147483648

/-- The place of a key in the order of its siblings: numeric keys come first
(sorted numerically), followed by the remaining keys (sorted lexicographically). -/
def Key.rank (k : Key) : Bool ×ₗ Int ×ₗ String :=
  toLex (k.number.isNone, toLex (k.number.getD 0, k.text))

theorem Key.rank_injective : Function.Injective Key.rank := by
  intro a b h
  simp only [Key.rank, EmbeddingLike.apply_eq_iff_eq, Prod.mk.injEq] at h
  cases a; cases b
  simp_all

instance : LinearOrder Key := LinearOrder.lift' Key.rank Key.rank_injective

/-! ## References -/

/-- A reference is the path of its location. -/
abbrev Reference := List Key

/-- `child(_:)` refuses `.`, `#`, `$`, `[`, `]` and the ASCII control characters. -/
def isRefused (c : Char) : Bool :=
  c ∈ ['.', '#', '$', '[', ']'] || c.toNat < 32 || c.toNat == 127

/-- A string on which `child(_:)` does not raise. -/
def IsPathString (s : String) : Prop := ∀ c ∈ s.toList, isRefused c = false

instance (s : String) : Decidable (IsPathString s) :=
  List.decidableBAll (fun c => isRefused c = false) s.toList

/-- The keys of a slash-separated path. Empty components are dropped. -/
def components (s : String) : List Key :=
  ((s.toList.splitOn '/').filter fun c => !c.isEmpty).map fun c => ⟨String.ofList c⟩

def Reference.child (ref : Reference) (pathString : String) : Except Fault Reference :=
  if IsPathString pathString then .ok (ref ++ components pathString) else .error .invalidPath

theorem child_ok {ref : Reference} {s : String} (h : IsPathString s) :
    ref.child s = .ok (ref ++ components s) := if_pos h

theorem child_error {ref : Reference} {s : String} (h : ¬ IsPathString s) :
    ref.child s = .error .invalidPath := if_neg h

/-- The identifier of an account: a legal key. -/
structure Uid where
  text : String
  nonempty : text ≠ ""
  slashFree : '/' ∉ text.toList
  isPathString : IsPathString text

deriving instance DecidableEq for Uid

def Uid.key (u : Uid) : Key := ⟨u.text⟩

theorem Uid.key_injective : Function.Injective Uid.key := by
  intro u v h
  cases u; cases v
  simp_all [Uid.key]

theorem Uid.components_text (u : Uid) : components u.text = [u.key] := by
  have hsplit : u.text.toList.splitOn '/' = [u.text.toList] := by
    apply List.splitOn_eq_singleton
    exact u.slashFree
  have hne : u.text.toList ≠ [] := by
    simpa using u.nonempty
  simp [components, hsplit, Uid.key, hne]

@[simp] theorem Uid.child_text (ref : Reference) (u : Uid) :
    ref.child u.text = .ok (ref ++ [u.key]) := by
  rw [child_ok u.isPathString, u.components_text]

/-- The accounts of the examples. -/
def alice : Uid where
  text := "alice"
  nonempty := by decide
  slashFree := by decide
  isPathString := by decide

def bob : Uid where
  text := "bob"
  nonempty := by decide
  slashFree := by decide
  isPathString := by decide

/-! ## The database -/

/-- The tree of the database, with strings at the leaves. -/
abbrev Database := Node Key String

/-- A child with its whole subtree, as an observer receives it. -/
abbrev Snapshot := Key × Database

/-- The value of a dictionary of strings. -/
def ofDictionary (fields : List (String × String)) : Database :=
  .dict (fields.foldl (fun cs f => put ⟨f.1⟩ (.leaf f.2) cs) [])

/-- One field of a value that is cast to a dictionary of strings. -/
def stringField : Snapshot → Except Fault (String × String)
  | (k, .leaf v) => .ok (k.text, v)
  | (_, .dict _) => .error .badCast

/-- The cast `as! Dictionary<String, String>`. -/
def asDictionary : Database → Except Fault (List (String × String))
  | .leaf _ => .error .badCast
  | .dict cs => cs.mapM stringField

end SharkCollector
