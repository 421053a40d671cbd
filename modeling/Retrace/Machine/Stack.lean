import Retrace.Halt
import Retrace.Word
/-!
# Retrace — the two stacks

The operand stack holds at most 1024 words, the return stack at most 1023
offsets. Both are lists with the top at the head, and the bound is part of the
type, so that no operation can exceed it. Every operation either succeeds or
names its fault; since the values are immutable, a failure leaves the stack as
it was.
-/

namespace Retrace

/-- The most words an operand stack holds. -/
def stackLimit : Nat := 1024

/-- The most offsets a return stack holds. -/
def returnStackLimit : Nat := 1023

/-- A stack of words, top first. -/
structure Stack where
  /-- The words, top first. -/
  words : List Word
  /-- The stack respects its limit. -/
  height_le : words.length ≤ stackLimit
  deriving DecidableEq

namespace Stack

/-- The empty stack. -/
def empty : Stack := ⟨[], Nat.zero_le _⟩

variable (s : Stack)

/-- The number of words. -/
def height : Nat := s.words.length

/-- Put a word on top. -/
def push (w : Word) : Except Fault Stack :=
  if h : s.words.length < stackLimit then .ok ⟨w :: s.words, h⟩ else .error .stackOverflow

/-- Take the `n` topmost words, top first, or none at all. -/
def pop (n : Nat) : Except Fault (Vector Word n × Stack) :=
  if h : n ≤ s.words.length then
    .ok (⟨(s.words.take n).toArray, by simp [h]⟩,
      ⟨s.words.drop n, Nat.le_trans (by simp) s.height_le⟩)
  else .error .stackUnderflow

/-- The word at `index`, the top being at zero. -/
def peek (index : Nat) : Option Word := s.words[index]?

/-- Copy the word at `depth` onto the top. -/
def dup (depth : Nat) : Except Fault Stack :=
  match s.peek depth with
  | some w => s.push w
  | none => .error .stackUnderflow

/-- Exchange the top with the word at `depth`. -/
def swap (depth : Nat) : Except Fault Stack :=
  match s.peek 0, s.peek depth with
  | some top, some deep =>
    .ok ⟨(s.words.set 0 deep).set depth top, by simpa using s.height_le⟩
  | _, _ => .error .stackUnderflow

/-- Put words on top one after the other, stopping at the first fault, with the fault if any. -/
def pushAll : Stack → List Word → Stack × Except Fault Unit
  | s, [] => (s, .ok ())
  | s, w :: rest =>
    match s.push w with
    | .ok s => s.pushAll rest
    | .error fault => (s, .error fault)

/-! ## When an operation succeeds, and what becomes of the words -/

variable {s} {next : Stack} {n depth : Nat}

/-- A stack is its words. -/
theorem eq_of_words {t : Stack} (h : s.words = t.words) : s = t := by
  cases s
  cases t
  cases h
  rfl

theorem push_of_lt (room : s.words.length < stackLimit) (w : Word) :
    ∃ next, s.push w = .ok next ∧ next.words = w :: s.words :=
  ⟨_, dif_pos room, rfl⟩

theorem push_of_le (full : stackLimit ≤ s.words.length) (w : Word) :
    s.push w = .error .stackOverflow := dif_neg (Nat.not_lt_of_le full)

/-- A push that succeeds has found room, and has put its word in front. -/
theorem push_ok {w : Word} (h : s.push w = .ok next) :
    s.words.length < stackLimit ∧ next.words = w :: s.words := by
  rcases Nat.lt_or_ge s.words.length stackLimit with room | full
  · obtain ⟨pushed, hpush, hwords⟩ := push_of_lt room w
    obtain rfl := Except.ok.inj (h.symm.trans hpush)
    exact ⟨room, hwords⟩
  · rw [push_of_le full] at h
    cases h

theorem pop_of_le (h : n ≤ s.words.length) : ∃ popped next, s.pop n = .ok (popped, next) ∧
    popped.toList = s.words.take n ∧ next.words = s.words.drop n :=
  ⟨_, _, dif_pos h, rfl, rfl⟩

theorem pop_of_lt (h : s.words.length < n) : s.pop n = .error .stackUnderflow :=
  dif_neg (Nat.not_le_of_lt h)

/-- A pop that succeeds has found its words, and has taken them off in order. -/
theorem pop_ok {popped : Vector Word n} (h : s.pop n = .ok (popped, next)) :
    n ≤ s.words.length ∧ popped.toList = s.words.take n ∧ next.words = s.words.drop n := by
  rcases Nat.lt_or_ge s.words.length n with hshort | hn
  · rw [pop_of_lt hshort] at h
    cases h
  · obtain ⟨taken, rest, hpop, htaken, hrest⟩ := pop_of_le hn
    obtain ⟨rfl, rfl⟩ := Prod.mk.inj (Except.ok.inj (h.symm.trans hpop))
    exact ⟨hn, htaken, hrest⟩

theorem dup_of_lt (h : depth < s.words.length) : s.dup depth = s.push s.words[depth] := by
  rw [dup, peek, List.getElem?_eq_getElem h]

theorem dup_of_le (h : s.words.length ≤ depth) : s.dup depth = .error .stackUnderflow := by
  rw [dup, peek, List.getElem?_eq_none h]

theorem swap_of_lt (h : depth < s.words.length) (htop : 0 < s.words.length) :
    ∃ next, s.swap depth = .ok next ∧
      next.words = (s.words.set 0 s.words[depth]).set depth s.words[0] := by
  rw [swap, peek, peek, List.getElem?_eq_getElem h, List.getElem?_eq_getElem htop]
  exact ⟨_, rfl, rfl⟩

theorem swap_of_le (h : s.words.length ≤ depth) : s.swap depth = .error .stackUnderflow := by
  rw [swap, peek, peek, List.getElem?_eq_none h]
  cases s.words[0]? <;> rfl

end Stack

/-- The offsets at which callers resume, innermost first. -/
structure ReturnStack where
  /-- The offsets, innermost first. -/
  offsets : List Nat
  /-- The stack respects its limit. -/
  depth_le : offsets.length ≤ returnStackLimit
  deriving DecidableEq

namespace ReturnStack

/-- The empty stack. -/
def empty : ReturnStack := ⟨[], Nat.zero_le _⟩

variable (s : ReturnStack)

/-- The number of calls that have not returned. -/
def depth : Nat := s.offsets.length

/-- The offsets, outermost first. -/
def outermostFirst : List Nat := s.offsets.reverse

/-- Record where a call resumes. -/
def push (offset : Nat) : Except Fault ReturnStack :=
  if h : s.offsets.length < returnStackLimit then .ok ⟨offset :: s.offsets, h⟩
  else .error .returnStackOverflow

/-- Record offsets one after the other, stopping at the first fault, with the fault if any. -/
def pushAll : ReturnStack → List Nat → ReturnStack × Except Fault Unit
  | s, [] => (s, .ok ())
  | s, offset :: rest =>
    match s.push offset with
    | .ok s => s.pushAll rest
    | .error fault => (s, .error fault)

/-- Take the innermost offset. -/
def pop : Except Fault (Nat × ReturnStack) :=
  match s with
  | ⟨[], _⟩ => .error .returnStackUnderflow
  | ⟨offset :: rest, h⟩ => .ok (offset, ⟨rest, Nat.le_of_succ_le h⟩)

end ReturnStack

end Retrace
