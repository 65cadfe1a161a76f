import Assay.Decimal.Binary

namespace Assay

inductive Trap where
  | slice
  | index
  | copy
  | chunk
  | overflow
  deriving DecidableEq, Repr

/-- A result, unless the program stops on the way to it. -/
abbrev Guarded := Except Trap

namespace Guarded

variable {α β ε : Type}

/-- A number that has to be a size. -/
def size (n : Nat) : Guarded Nat :=
  if n < Decimal.sizeLimit then .ok n else .error .overflow

def add (a b : Nat) : Guarded Nat := size (a + b)

def mul (a b : Nat) : Guarded Nat := size (a * b)

def sub (a b : Nat) : Guarded Nat :=
  if b ≤ a then .ok (a - b) else .error .overflow

/-- The items of a buffer from one place up to another. -/
def slice (xs : List α) (first last : Nat) : Guarded (List α) :=
  if first ≤ last ∧ last ≤ xs.length then .ok ((xs.take last).drop first) else .error .slice

def index (xs : List α) (place : Nat) : Guarded α :=
  match xs[place]? with
  | none => .error .index
  | some x => .ok x

def assign (xs : List α) (place : Nat) (x : α) : Guarded (List α) :=
  if place < xs.length then .ok (xs.set place x) else .error .index

/-- The items of a buffer, copied into one of a fixed length. -/
def copy (length : Nat) (xs : List α) : Guarded (List α) :=
  if xs.length = length then .ok xs else .error .copy

/-- The first pieces of a buffer, each of the same length. -/
def pieces (width : Nat) : Nat → List α → List (List α)
  | 0, _ => []
  | count + 1, xs => xs.take width :: pieces width count (xs.drop width)

/-- The buffer cut into pieces of the same length; what is left at the end is dropped. -/
def chunks (width : Nat) (xs : List α) : Guarded (List (List α)) :=
  if width = 0 then .error .chunk else .ok (pieces width (xs.length / width) xs)

/-- The product of sizes, taken from the left. -/
def product (sizes : List Nat) : Guarded Nat :=
  sizes.foldlM mul 1

theorem size_ok {n : Nat} (h : n < Decimal.sizeLimit) : size n = .ok n := by
  rw [size, if_pos h]

theorem add_ok {a b : Nat} (h : a + b < Decimal.sizeLimit) : add a b = .ok (a + b) :=
  size_ok h

theorem mul_ok {a b : Nat} (h : a * b < Decimal.sizeLimit) : mul a b = .ok (a * b) :=
  size_ok h

theorem sub_ok {a b : Nat} (h : b ≤ a) : sub a b = .ok (a - b) := by
  rw [sub, if_pos h]

theorem slice_ok {xs : List α} {first last : Nat} (hf : first ≤ last) (hl : last ≤ xs.length) :
    slice xs first last = .ok ((xs.take last).drop first) := by
  rw [slice, if_pos ⟨hf, hl⟩]

theorem slice_rest {xs : List α} {first : Nat} (h : first ≤ xs.length) :
    slice xs first xs.length = .ok (xs.drop first) := by
  rw [slice_ok h (Nat.le_refl _), List.take_length]

theorem slice_front {xs : List α} {last : Nat} (h : last ≤ xs.length) :
    slice xs 0 last = .ok (xs.take last) := by
  rw [slice_ok (Nat.zero_le _) h, List.drop_zero]

theorem index_ok {xs : List α} {place : Nat} {x : α} (h : xs[place]? = some x) :
    index xs place = .ok x := by
  simp only [index, h]

theorem assign_ok {xs : List α} {place : Nat} (h : place < xs.length) (x : α) :
    assign xs place x = .ok (xs.set place x) := by
  rw [assign, if_pos h]

theorem copy_ok {length : Nat} {xs : List α} (h : xs.length = length) :
    copy length xs = .ok xs := by
  rw [copy, if_pos h]

theorem chunks_ok {width : Nat} (h : 0 < width) (xs : List α) :
    chunks width xs = .ok (pieces width (xs.length / width) xs) := by
  rw [chunks, if_neg (Nat.ne_of_gt h)]

@[simp] theorem ok_bind (a : α) (f : α → Guarded β) : (Except.ok a : Guarded α) >>= f = f a := rfl

/-- A result of a program without a place to stop at, as one of a program with such places. -/
def given (r : Except ε α) : ExceptT ε Guarded α :=
  ExceptT.mk (.ok r)

/-- A stop where results can also be refused. -/
def stop (trap : Trap) : ExceptT ε Guarded α :=
  ExceptT.lift (.error trap)

/-- What follows a result need only be safe for that result. -/
theorem given_bind {r : Except ε α} {f : α → ExceptT ε Guarded β} {g : α → Except ε β}
    (h : ∀ a, r = .ok a → f a = given (g a)) : given r >>= f = given (r >>= g) := by
  cases r with
  | error e => rfl
  | ok a => exact h a rfl

theorem lift_ok {x : Guarded α} {a : α} (h : x = .ok a) :
    (liftM x : ExceptT ε Guarded α) = given (.ok a) := by
  rw [h]
  rfl

/-- An operation that does not stop the program gives its result to what follows. -/
theorem lift_bind {x : Guarded α} {a : α} (h : x = .ok a) (f : α → ExceptT ε Guarded β) :
    (liftM x : ExceptT ε Guarded α) >>= f = f a := by
  rw [h]
  rfl

theorem given_map_bind {γ : Type} {r : Except ε α} {m : α → γ} {f : γ → ExceptT ε Guarded β} :
    given (r.map m) >>= f = given r >>= fun a => f (m a) := by
  cases r <;> rfl

theorem adapt_given {δ : Type} (m : ε → δ) (r : Except ε α) :
    ExceptT.adapt m (given r) = given (r.mapError m) := by
  cases r <;> rfl

end Guarded

end Assay
