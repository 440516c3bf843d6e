import Cadence.Feed.Source

namespace Cadence

/-- A consumer of `α` as the tree of what it asks of a source: the next item, or a hint, and how it
goes on with each answer. -/
inductive Pulls (α β : Type)
  | done (b : β)
  | next (andThen : Option α → Pulls α β)
  | hint (andThen : Hint → Pulls α β)
  | crash (c : Crash)

namespace Pulls

variable {α β γ : Type}

def bind : Pulls α β → (β → Pulls α γ) → Pulls α γ
  | done b, f => f b
  | next g, f => next fun item => (g item).bind f
  | hint g, f => hint fun h => (g h).bind f
  | crash c, _ => crash c

def run {ι σ : Type} [Source ι σ α] : Pulls α β → ι → σ → Attempt β × ι × σ
  | done b, source, s => (.ok b, source, s)
  | crash c, source, s => (.error c, source, s)
  | hint f, source, s => (f (Source.hint source)).run source s
  | next f, source, s =>
    match Source.next source s with
    | (.ok item, source, s) => (f item).run source s
    | (.error c, source, s) => (.error c, source, s)

def pull : Pulls α (Option α) := next done

def passing (limit : Nat) : Pulls α (List α) := go limit []
where
  go : Nat → List α → Pulls α (List α)
    | 0, passed => done passed.reverse
    | n + 1, passed => next fun
      | some item => go n (item :: passed)
      | none => done passed.reverse

/-- A list has room for fewer than `2 ^ 58` items: one takes 32 bytes, and all of them have to take
fewer than `2 ^ 63`. -/
def greatestRoom : Nat := 288230376151711743

/-- Lists a first item, if there is one, and those after it. Once the first is there the list gets
room for it and for as many as the hint then promises. -/
def list (promised : Hint → Nat) (first : Option α) (others : Pulls α (List α)) :
    Pulls α (List α) :=
  match first with
  | none => done []
  | some item => hint fun h =>
    if promised h < greatestRoom then others.bind fun items => done (item :: items)
    else crash .roomOverflow

def collect (limit : Nat) : Pulls α (List α) :=
  pull.bind fun first => list Hint.least first (passing limit)

def take : Nat → Pulls α (List α)
  | 0 => done []
  | n + 1 => pull.bind fun first => list (min n ·.least) first (passing n)

def nth : Nat → Pulls α (Option α)
  | 0 => pull
  | n + 1 => next fun
    | some _ => nth n
    | none => done none

def skip (n limit : Nat) : Pulls α (List α) :=
  (nth n).bind fun first => list Hint.least first (passing limit)

def stepBy (step limit : Nat) : Pulls α (List α) :=
  match step with
  | 0 => crash .zeroStep
  | passed + 1 => pull.bind fun first => list (·.least / (passed + 1)) first (go passed limit [])
where
  go (passed : Nat) : Nat → List α → Pulls α (List α)
    | 0, taken => done taken.reverse
    | n + 1, taken => (nth passed).bind fun
      | some item => go passed n (item :: taken)
      | none => done taken.reverse

def count (limit : Nat) : Pulls α Nat := (passing limit).bind fun items => done items.length

def last (limit : Nat) : Pulls α (Option α) :=
  (passing limit).bind fun items => done items.getLast?

def find (p : α → Bool) : Nat → Pulls α (Option α)
  | 0 => done none
  | n + 1 => next fun
    | some item => if p item then done (some item) else find p n
    | none => done none

def filter (p : α → Bool) (limit : Nat) : Pulls α (List α) :=
  (passing limit).bind fun items => done (items.filter p)

/-- The items paired with the members of a list. An item is pulled before its partner is looked
for, so one without a partner is pulled too. -/
def zip (partners : List β) : Pulls α (List (α × β)) := go partners []
where
  go : List β → List (α × β) → Pulls α (List (α × β))
    | [], paired => next fun _ => done paired.reverse
    | b :: bs, paired => next fun
      | some item => go bs ((item, b) :: paired)
      | none => done paired.reverse

def split (n limit : Nat) : Pulls α (List α × List α) :=
  (take n).bind fun front => (collect limit).bind fun rest => done (front, rest)

def trace (n : Nat) : Pulls α (List (Hint × Option α) × Hint) := go n []
where
  go : Nat → List (Hint × Option α) → Pulls α (List (Hint × Option α) × Hint)
    | 0, answers => hint fun h => done (answers.reverse, h)
    | n + 1, answers => hint fun h => next fun item => go n ((h, item) :: answers)

end Pulls

end Cadence
