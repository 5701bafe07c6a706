import Mathlib.Logic.Function.Basic
import Mathlib.Tactic.Common
import Fusen.Lib.Threads
import Fusen.Lib.Word

/-!
# Byte budgets

A `ByteBudget` counts the bytes of bodies in flight, and a `BytePermit` is a
share of it that returns itself when its last holder drops it.  `Prog` is the
language of what code does with budgets and permits: reserve, grow, read,
share, drop and hand over.  The tasks of `budgets` run such programs by
interleaving their atomic steps, the compare-and-exchange loop of `try_add`
included.
-/

namespace Fusen.Runtime

open Lib

/-- A permit: its budget, its size, the `Arc`s (or the one owner) that hold it,
and whether its bytes are still to be returned. -/
structure Permit where
  budget : Nat
  bytes : Nat
  holders : Nat
  live : Bool

/-- The budgets by number, every permit there ever was, and the permits on their
way from one task to another. -/
structure Ledger where
  used : Nat → Nat
  permits : List Permit
  transit : List Nat

/-! ## Programs over budgets -/

/-- What a task does with budgets, up to the pure code between two accesses. -/
inductive Prog (α : Type) where
  | pure (a : α)
  /-- `ByteBudget::try_reserve` -/
  | tryReserve (budget bytes : Nat) (k : Option Nat → Prog α)
  /-- `BytePermit::grow` -/
  | grow (permit bytes : Nat) (k : Bool → Prog α)
  /-- `BytePermit::bytes` -/
  | bytes (permit : Nat) (k : Nat → Prog α)
  /-- `BytePermit::belongs_to` -/
  | belongsTo (permit budget : Nat) (k : Bool → Prog α)
  /-- `Arc::clone` of a permit -/
  | clone (permit : Nat) (k : Prog α)
  | drop (permit : Nat) (k : Prog α)
  /-- Hands the permit to whoever receives it. -/
  | send (permit : Nat) (k : Prog α)
  | receive (k : Nat → Prog α)

namespace Prog

variable {α β : Type}

def bind : Prog α → (α → Prog β) → Prog β
  | .pure a, f => f a
  | .tryReserve b n k, f => .tryReserve b n fun r => (k r).bind f
  | .grow id n k, f => .grow id n fun ok => (k ok).bind f
  | .bytes id k, f => .bytes id fun n => (k n).bind f
  | .belongsTo id b k, f => .belongsTo id b fun r => (k r).bind f
  | .clone id k, f => .clone id (k.bind f)
  | .drop id k, f => .drop id (k.bind f)
  | .send id k, f => .send id (k.bind f)
  | .receive k, f => .receive fun id => (k id).bind f

instance : Monad Prog where
  pure := .pure
  bind := .bind

end Prog

/-! ## Steps on the ledger -/

namespace Ledger

variable (limits : Nat → Fin Usize.size)

def empty : Ledger := ⟨fun _ => 0, [], []⟩

/-- The check of `try_add`: what the budget would count, if that fits. -/
def fits (budget bytes current : Nat) : Option Nat :=
  match Usize.checkedAdd current bytes with
  | none => none
  | some next => if next > limits budget then none else some next

def setUsed (L : Ledger) (budget n : Nat) : Ledger :=
  { L with used := Function.update L.used budget n }

def setPermit (L : Ledger) (id : Nat) (p : Permit) : Ledger :=
  { L with permits := L.permits.set id p }

/-- A new permit with one holder. -/
def addPermit (L : Ledger) (budget bytes : Nat) : Ledger :=
  { L with permits := L.permits ++ [⟨budget, bytes, 1, true⟩] }

/-- `self.bytes.fetch_add` -/
def record (L : Ledger) (id : Nat) (p : Permit) (bytes : Nat) : Ledger :=
  L.setPermit id { p with bytes := Usize.wrappingAdd p.bytes bytes }

/-- `ByteBudget::release` of a permit that nobody holds any more. -/
def release (L : Ledger) (id : Nat) (p : Permit) : Ledger :=
  (L.setUsed p.budget (Usize.wrappingSub (L.used p.budget) p.bytes)).setPermit id
    { p with live := false }

end Ledger

/-! ## Tasks -/

/-- What a successful `try_add` is for. -/
inductive Goal (α : Type) where
  | reserve (k : Option Nat → Prog α)
  | grow (permit : Nat) (k : Bool → Prog α)

def Goal.failed {α : Type} : Goal α → Prog α
  | .reserve k => k none
  | .grow _ k => k false

inductive Phase (α : Type) where
  | ready (p : Prog α)
  /-- `try_add` has read `current` and tries the exchange next. -/
  | adding (budget bytes current : Nat) (goal : Goal α)
  /-- `grow` has added to the budget and adds to the permit next. -/
  | recording (budget permit bytes : Nat) (k : Prog α)
  /-- The last holder is gone; `release` comes next. -/
  | releasing (permit : Nat) (k : Prog α)

structure Task (α : Type) where
  held : List Nat
  phase : Phase α

/-- `run` is the task's next step, `fail` a spurious failure of the weak
exchange and `pick` the arrival of a permit. -/
inductive TaskAction where
  | run
  | fail
  | pick (permit : Nat)

namespace Task

variable {α : Type} (limits : Nat → Fin Usize.size)

/-- The permit `id`, if the task holds it. -/
def permit? (L : Ledger) (held : List Nat) (id : Nat) : Option Permit :=
  if id ∈ held then L.permits[id]? else none

/-- One step at a program. -/
def stepAt (L : Ledger) (held : List Nat) : Prog α → TaskAction → Option (Ledger × Task α)
  | .tryReserve b n k, .run => some (L, ⟨held, .adding b n (L.used b) (.reserve k)⟩)
  | .grow id n k, .run =>
    (permit? L held id).map fun p => (L, ⟨held, .adding p.budget n (L.used p.budget) (.grow id k)⟩)
  | .bytes id k, .run => (permit? L held id).map fun p => (L, ⟨held, .ready (k p.bytes)⟩)
  | .belongsTo id b k, .run =>
    (permit? L held id).map fun p => (L, ⟨held, .ready (k (p.budget == b))⟩)
  | .clone id k, .run =>
    (permit? L held id).map fun p =>
      (L.setPermit id { p with holders := p.holders + 1 }, ⟨id :: held, .ready k⟩)
  | .drop id k, .run =>
    (permit? L held id).map fun p =>
      (L.setPermit id { p with holders := p.holders - 1 },
        ⟨held.erase id, if p.holders = 1 then .releasing id k else .ready k⟩)
  | .send id k, .run =>
    (permit? L held id).map fun _ =>
      ({ L with transit := id :: L.transit }, ⟨held.erase id, .ready k⟩)
  | .receive k, .pick id =>
    if id ∈ L.transit then
      some ({ L with transit := L.transit.erase id }, ⟨id :: held, .ready (k id)⟩)
    else none
  | _, _ => none

/-- The exchange of `try_add`: it takes the bytes if nobody was faster. -/
def exchange (L : Ledger) (held : List Nat) (b n current : Nat) (goal : Goal α)
    (spurious : Bool) : Option (Ledger × Task α) :=
  match Ledger.fits limits b n current with
  | none => some (L, ⟨held, .ready goal.failed⟩)
  | some next =>
    if L.used b = current ∧ spurious = false then
      match goal with
      | .reserve k =>
        let id := L.permits.length
        some ((L.setUsed b next).addPermit b n, ⟨id :: held, .ready (k (some id))⟩)
      | .grow id k => some (L.setUsed b next, ⟨held, .recording b id n (k true)⟩)
    else some (L, ⟨held, .adding b n (L.used b) goal⟩)

def next (L : Ledger) (t : Task α) (e : TaskAction) : Option (Ledger × Task α) :=
  match t.phase, e with
  | .ready p, e => stepAt L t.held p e
  | .adding b n current goal, .run => exchange limits L t.held b n current goal false
  | .adding b n current goal, .fail => exchange limits L t.held b n current goal true
  | .recording _ id n k, .run =>
    (L.permits[id]?).map fun p => (L.record id p n, ⟨t.held, .ready k⟩)
  | .releasing id k, .run => (L.permits[id]?).map fun p => (L.release id p, ⟨t.held, .ready k⟩)
  | _, _ => none

end Task

/-- The budgets of the given limits and every task that runs on them. -/
def budgets (α : Type) (limits : Nat → Fin Usize.size) :
    Threads Ledger (Task α) (Prog α) TaskAction where
  shared := .empty
  start p := ⟨[], .ready p⟩
  next := Task.next limits

end Fusen.Runtime
