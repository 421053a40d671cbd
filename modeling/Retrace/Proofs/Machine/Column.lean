import Mathlib.Data.List.Basic
import Mathlib.Data.Nat.PSub
import Retrace.Machine.Stack
/-!
# Retrace — the stack in place

A stack is told from the top: whatever is done to it is done to the list of its
words, top first. It can as well be kept in a *column*, an array that has the
bottom first and is changed in place. There every index is counted back from the
end, by subtractions each of which may fail, and words are drained from the end
and have to be turned around. The two come to the same: an action on the column
of a stack hands back the same words, or is refused for the same cause, and
leaves the column of the stack that is left (`Stack.perform_column`). In
particular an action that is refused has changed nothing in place. So it is after
any actions, in any order (`Stack.afterAll_column`).
-/

namespace Retrace

/-- Turned around, an exchange is one of the places counted from the other end. -/
theorem reverse_swap {α : Type} {words : List α} {i j : Nat} (hi : i < words.length)
    (hj : j < words.length) : (words.swap i j).reverse =
      words.reverse.swap (words.length - 1 - i) (words.length - 1 - j) := by
  refine List.ext_getElem (by simp) fun k hk _ => ?_
  rw [List.length_reverse, List.length_swap] at hk
  simp only [List.getElem_reverse, List.getElem_swap, List.length_swap, List.length_reverse]
  grind

namespace Stack

variable {s next : Stack} {depth : Nat}

/-! ## The operations on the words -/

/-- What an exchange leaves, where it finds the word at its depth. -/
theorem exists_swap (h : depth < s.words.length) :
    ∃ next, s.swap depth = .ok next ∧ next.words = s.words.swap 0 depth := by
  have htop : 0 < s.words.length := Nat.zero_lt_of_lt h
  rw [List.swap_eq_of_lt htop h]
  exact swap_of_lt h htop

/-- **An exchange undoes itself.** -/
theorem swap_swap (h : s.swap depth = .ok next) : next.swap depth = .ok s := by
  rcases Nat.lt_or_ge depth s.words.length with hdepth | hshort
  · obtain ⟨swapped, hswapped, hwords⟩ := exists_swap hdepth
    obtain rfl := Except.ok.inj (h.symm.trans hswapped)
    rw [← List.length_swap (i := 0) (j := depth), ← hwords] at hdepth
    obtain ⟨back, hback, hsame⟩ := exists_swap hdepth
    rw [hwords, List.swap_swap] at hsame
    rw [hback, eq_of_words hsame]
  · rw [swap_of_le hshort] at h
    cases h

/-! Each of them is refused exactly where the words do not allow it. -/

theorem map_words_push (s : Stack) (w : Word) : (s.push w).map words =
    if s.words.length < stackLimit then .ok (w :: s.words) else .error .stackOverflow := by
  split
  · rename_i room
    obtain ⟨next, hpush, hwords⟩ := push_of_lt room w
    rw [hpush]
    exact congrArg Except.ok hwords
  · rename_i full
    rw [push_of_le (Nat.le_of_not_lt full)]
    rfl

theorem map_words_pop (s : Stack) (n : Nat) :
    (s.pop n).map (fun (popped, next) => (popped.toList, next.words)) =
      if n ≤ s.words.length then .ok (s.words.take n, s.words.drop n)
      else .error .stackUnderflow := by
  split
  · rename_i hn
    obtain ⟨popped, next, hpop, hpopped, hwords⟩ := pop_of_le hn
    rw [hpop]
    exact congrArg Except.ok (Prod.ext hpopped hwords)
  · rename_i hshort
    rw [pop_of_lt (Nat.lt_of_not_le hshort)]
    rfl

theorem map_words_dup (s : Stack) (depth : Nat) : (s.dup depth).map words =
    if h : depth < s.words.length then
      if s.words.length < stackLimit then .ok (s.words[depth] :: s.words)
      else .error .stackOverflow
    else .error .stackUnderflow := by
  split
  · rename_i hdepth
    rw [dup_of_lt hdepth]
    exact s.map_words_push _
  · rename_i hshort
    rw [dup_of_le (Nat.le_of_not_lt hshort)]
    rfl

theorem map_words_swap (s : Stack) (depth : Nat) : (s.swap depth).map words =
    if depth < s.words.length then .ok (s.words.swap 0 depth) else .error .stackUnderflow := by
  split
  · rename_i hdepth
    obtain ⟨next, hswap, hwords⟩ := exists_swap hdepth
    rw [hswap]
    exact congrArg Except.ok hwords
  · rename_i hshort
    rw [swap_of_le (Nat.le_of_not_lt hshort)]
    rfl

/-! ## Actions -/

/-- What can be done to a stack. -/
inductive Action where
  | push (w : Word)
  | pushZero
  | pop (n : Nat)
  | popOne
  | dup (depth : Nat)
  | swap (depth : Nat)

/-- Act on a stack: the words that this hands back, and the stack that it leaves. -/
def Action.apply (s : Stack) : Action → Except Fault (List Word × Stack)
  | .push w => (s.push w).map fun next => ([], next)
  | .pushZero => (s.push 0).map fun next => ([], next)
  | .pop n => (s.pop n).map fun (popped, next) => (popped.toList, next)
  | .popOne => (s.pop 1).map fun (popped, next) => (popped.toList, next)
  | .dup depth => (s.dup depth).map fun next => ([], next)
  | .swap depth => (s.swap depth).map fun next => ([], next)

/-- The stack after an action. One that fails leaves it as it is. -/
def after (s : Stack) (action : Action) : Stack :=
  match action.apply s with
  | .ok (_, next) => next
  | .error _ => s

/-- The stack after actions in turn. -/
def afterAll (s : Stack) (actions : List Action) : Stack := actions.foldl after s

theorem after_of_ok {action : Action} {answer : List Word}
    (h : action.apply s = .ok (answer, next)) : s.after action = next := by
  unfold after
  rw [h]

/-- **Words that are pushed in turn lie on one another**, by induction on them. -/
theorem words_afterAll_push {pushed : List Word}
    (room : pushed.length + s.words.length ≤ stackLimit) :
    (s.afterAll (pushed.map .push)).words = pushed.reverse ++ s.words := by
  induction pushed generalizing s with
  | nil => rfl
  | cons w rest ih =>
    rw [List.length_cons] at room
    obtain ⟨next, hpush, hwords⟩ := push_of_lt (s := s) (by omega) w
    have hnext : s.after (.push w) = next := after_of_ok (congrArg (Except.map _) hpush)
    have hrest : next.afterAll (rest.map .push) = s.afterAll ((w :: rest).map .push) := by
      rw [← hnext]
      rfl
    rw [← hrest, ih (by rw [hwords, List.length_cons]; omega), hwords, List.reverse_cons,
      List.append_assoc, List.singleton_append]

end Stack

/-! ## Columns -/

/-- Words in an array that is changed in place, bottom first. -/
abbrev Column := Array Word

namespace Column

variable (column : Column)

/-- The word at `index`, counted back from the end. -/
def peek (index : Nat) : Option Word := do
  let above ← column.size.psub index
  let place ← above.psub 1
  column[place]?

/-- Put a word at the end, if there is room. -/
def put (w : Word) : Except Fault (List Word) × Column :=
  if stackLimit ≤ column.size then (.error .stackOverflow, column) else (.ok [], column.push w)

/-- Act in place: the words that this hands back, or why not, and the column that it leaves. -/
def perform : Stack.Action → Except Fault (List Word) × Column
  | .push w => column.put w
  | .pushZero => column.put 0
  | .pop n =>
    match column.size.psub n with
    | none => (.error .stackUnderflow, column)
    | some height =>
      (.ok (column.extract height column.size).toList.reverse, column.extract 0 height)
  | .popOne =>
    match column.back? with
    | none => (.error .stackUnderflow, column)
    | some top => (.ok [top], column.pop)
  | .dup depth =>
    match column.peek depth with
    | none => (.error .stackUnderflow, column)
    | some w => column.put w
  | .swap depth =>
    match column.size.psub 1 with
    | none => (.error .stackUnderflow, column)
    | some top =>
      match top.psub depth with
      | none => (.error .stackUnderflow, column)
      | some deep => (.ok [], column.swapIfInBounds top deep)

/-- The column after an action, whether it failed or not. -/
def after (action : Stack.Action) : Column := (column.perform action).2

/-- The column after actions in turn. -/
def afterAll (actions : List Stack.Action) : Column := actions.foldl after column

/-- Draining from a height on takes what is above it. -/
theorem toList_drained (height : Nat) :
    (column.extract height column.size).toList = column.toList.drop height := by
  rw [Array.toList_extract, List.extract_eq_take_drop]
  refine List.take_of_length_le ?_
  rw [List.length_drop, Array.length_toList]

/-- Taking the last word is taking as many words as one. -/
theorem perform_popOne : column.perform .popOne = column.perform (.pop 1) := by
  rcases Nat.eq_zero_or_pos column.size with hempty | hsome
  · rw [Array.size_eq_zero_iff.1 hempty]
    rfl
  · obtain ⟨rest, top, rfl⟩ := Array.exists_push_of_size_pos hsome
    have hheight : (rest.push top).size.psub 1 = some rest.size := by
      rw [Array.size_push]
      rfl
    have hleft : (rest.push top).extract 0 rest.size = (rest.push top).pop :=
      Array.extract_eq_pop (by rw [Array.size_push, Nat.add_sub_cancel])
    rw [perform, perform, Array.back?_push, hheight]
    dsimp only
    rw [toList_drained, hleft, Array.toList_push, ← Array.length_toList, List.drop_left]
    rfl

end Column

namespace Stack

variable (s : Stack)

/-- The words of a stack, bottom first. -/
def column : Column := s.words.reverse.toArray

@[simp] theorem size_column : s.column.size = s.words.length := by
  rw [column, List.size_toArray, List.length_reverse]

/-- How an outcome stands in place: what is refused leaves the column of the stack as it was. -/
def inPlace : Except Fault (List Word × Stack) → Except Fault (List Word) × Column
  | .ok (answer, next) => (.ok answer, next.column)
  | .error cause => (.error cause, s.column)

variable {s}

theorem inPlace_ok {answer : List Word} {column : Column} (h : column.toList = next.words.reverse) :
    (.ok answer, column) = s.inPlace (.ok (answer, next)) :=
  congrArg (Prod.mk _) (congrArg List.toArray h)

variable (s)

/-- **Counted back from the end, an index is one from the top.** -/
theorem peek_column (index : Nat) : s.column.peek index = s.peek index := by
  have hplace : s.column.peek index = s.words.length.psub (index + 1) >>= (s.column[·]?) := by
    rw [Nat.psub_add, bind_assoc, ← size_column]
    rfl
  rw [hplace, peek]
  rcases Nat.lt_or_ge index s.words.length with hindex | hshort
  · rw [Nat.psub_eq_sub hindex, Option.bind_eq_bind, Option.bind_some, column,
      List.getElem?_toArray, List.getElem?_reverse (by omega)]
    congr 1
    omega
  · rw [List.getElem?_eq_none hshort, Nat.psub_eq_none.2 (Nat.lt_succ_of_le hshort)]
    rfl

theorem put_column (w : Word) :
    s.column.put w = s.inPlace ((s.push w).map fun next => ([], next)) := by
  rw [Column.put, size_column]
  rcases Nat.lt_or_ge s.words.length stackLimit with room | full
  · obtain ⟨next, hpush, hwords⟩ := push_of_lt room w
    rw [hpush, if_neg (Nat.not_le_of_lt room)]
    refine inPlace_ok ?_
    rw [hwords, List.reverse_cons, Array.toList_push]
    rfl
  · rw [push_of_le full, if_pos full]
    rfl

theorem perform_pop_column (n : Nat) :
    s.column.perform (.pop n) = s.inPlace (Action.apply s (.pop n)) := by
  rw [Column.perform, Action.apply]
  rcases Nat.lt_or_ge s.words.length n with hshort | hn
  · rw [pop_of_lt hshort, size_column, Nat.psub_eq_none.2 hshort]
    rfl
  · obtain ⟨popped, next, hpop, hpopped, hwords⟩ := pop_of_le hn
    have hheight : s.column.size.psub n = some (s.words.length - n) := by
      rw [size_column, Nat.psub_eq_sub hn]
    have hdrained : (s.column.toList.drop (s.words.length - n)).reverse = popped.toList := by
      rw [column, List.drop_reverse, Nat.sub_sub_self hn, List.reverse_reverse, hpopped]
    rw [hpop, hheight]
    dsimp only
    rw [Column.toList_drained, hdrained]
    refine inPlace_ok ?_
    rw [hwords, List.reverse_drop, Array.toList_extract, List.extract_eq_take_drop]
    rfl

theorem perform_dup_column (depth : Nat) :
    s.column.perform (.dup depth) = s.inPlace (Action.apply s (.dup depth)) := by
  rw [Column.perform, Action.apply, peek_column, peek]
  rcases Nat.lt_or_ge depth s.words.length with hdepth | hshort
  · rw [dup_of_lt hdepth, List.getElem?_eq_getElem hdepth]
    exact s.put_column _
  · rw [dup_of_le hshort, List.getElem?_eq_none hshort]
    rfl

theorem perform_swap_column (depth : Nat) :
    s.column.perform (.swap depth) = s.inPlace (Action.apply s (.swap depth)) := by
  rw [Column.perform, Action.apply, size_column]
  rcases Nat.lt_or_ge depth s.words.length with hdepth | hshort
  · obtain ⟨next, hswap, hwords⟩ := exists_swap hdepth
    have htop : s.words.length - 1 < s.column.size := by rw [size_column]; omega
    have hdeep : s.words.length - 1 - depth < s.column.size := by rw [size_column]; omega
    rw [hswap, Nat.psub_eq_sub (by omega)]
    dsimp only
    rw [Nat.psub_eq_sub (by omega)]
    refine inPlace_ok ?_
    rw [hwords, reverse_swap (by omega) hdepth, Array.swapIfInBounds, dif_pos htop, dif_pos hdeep,
      Array.toList_swap]
    exact (List.swap_eq_of_lt htop hdeep).symm
  · rw [swap_of_le hshort]
    -- either subtraction may be the one that fails
    rcases Nat.eq_zero_or_pos s.words.length with hempty | hsome
    · rw [hempty]
      rfl
    · rw [Nat.psub_eq_sub hsome]
      dsimp only
      rw [Nat.psub_eq_none.2 (by omega)]
      rfl

/-- **An action on the column of a stack is the action on the stack.** -/
theorem perform_column (action : Action) :
    s.column.perform action = s.inPlace (action.apply s) := by
  cases action with
  | push w => exact s.put_column w
  | pushZero => exact s.put_column 0
  | pop n => exact s.perform_pop_column n
  | popOne => exact s.column.perform_popOne.trans (s.perform_pop_column 1)
  | dup depth => exact s.perform_dup_column depth
  | swap depth => exact s.perform_swap_column depth

theorem after_column (action : Action) : s.column.after action = (s.after action).column := by
  rw [Column.after, perform_column, after]
  cases action.apply s <;> rfl

/-- **And so are actions in turn**, by induction on them. -/
theorem afterAll_column (actions : List Action) :
    s.column.afterAll actions = (s.afterAll actions).column := by
  induction actions generalizing s with
  | nil => rfl
  | cons action rest ih =>
    have hrest := ih (s.after action)
    rw [← after_column] at hrest
    exact hrest

end Stack

/-- **A stack acts as the list of its words.** After any actions on an empty stack it holds no more
than 1024 words. A look at an index is one at the list. A push puts a word in front, and is refused
exactly where there are 1024 words already; a pop takes the first words off, in order, and is
refused exactly where there are fewer; a copy puts the word at its depth in front, and is refused
where there is none, and otherwise where a push is; an exchange lets the first word and the one at
its depth change places, is refused exactly where there is none, and undoes itself. The column that
the same actions have left in place holds the same words the other way round, and every action on it
hands back the same or is refused for the same cause; one that is refused leaves the column exactly
as it was. -/
theorem stack_acts_as_list (actions : List Stack.Action) :
    let s := Stack.empty.afterAll actions
    let words := s.words
    let column := Column.afterAll #[] actions
    words.length ≤ 1024 ∧
    (∀ index, s.peek index = words[index]?) ∧
    (∀ w, (s.push w).map Stack.words =
      if words.length < 1024 then .ok (w :: words) else .error .stackOverflow) ∧
    (∀ n, (s.pop n).map (fun (popped, next) => (popped.toList, next.words)) =
      if n ≤ words.length then .ok (words.take n, words.drop n) else .error .stackUnderflow) ∧
    (∀ depth, (s.dup depth).map Stack.words =
      if h : depth < words.length then
        if words.length < 1024 then .ok (words[depth] :: words) else .error .stackOverflow
      else .error .stackUnderflow) ∧
    (∀ depth, (s.swap depth).map Stack.words =
      if depth < words.length then .ok (words.swap 0 depth) else .error .stackUnderflow) ∧
    (∀ depth next, s.swap depth = .ok next → next.swap depth = .ok s) ∧
    column.toList.reverse = words ∧ column.size ≤ 1024 ∧
    (∀ index, column.peek index = words[index]?) ∧
    ∀ action : Stack.Action, column.perform action =
      match action.apply s with
      | .ok (answer, next) => (.ok answer, next.column)
      | .error cause => (.error cause, column) := by
  intro s words column
  have hcolumn : column = s.column := Stack.empty.afterAll_column actions
  refine ⟨s.height_le, fun _ => rfl, s.map_words_push, s.map_words_pop, s.map_words_dup,
    s.map_words_swap, fun _ _ => Stack.swap_swap, ?_, ?_, fun index => ?_, fun action => ?_⟩
  · rw [hcolumn]
    exact List.reverse_reverse words
  · rw [hcolumn, Stack.size_column]
    exact s.height_le
  · rw [hcolumn]
    exact s.peek_column index
  · rw [hcolumn]
    exact s.perform_column action

/-- As many pushes as a stack has room for. -/
def fillingPushes : List Stack.Action := (List.replicate 1024 7).map .push

theorem length_filled : (Stack.empty.afterAll fillingPushes).words.length = 1024 := by
  have hheight : (List.replicate 1024 (7 : Word)).length = 1024 := List.length_replicate
  have hpushed : (Stack.empty.afterAll fillingPushes).words =
      (List.replicate 1024 7).reverse ++ Stack.empty.words :=
    Stack.words_afterAll_push (by rw [hheight]; decide)
  rw [hpushed, List.length_append, List.length_reverse, hheight]
  rfl

/-- An exchange, a copy from too deep and one of the deepest word, which is put on top of the first:
two words come off in order, and of five that are asked for none does. On a full stack the deepest
word is there to be copied and finds no room, and the one below it is not there. -/
theorem stack_acts_as_list_of_full :
    let few : List Stack.Action := [.push 1, .push 2, .push 3, .swap 2, .dup 3, .dup 2]
    let s := Stack.empty.afterAll few
    let full := Stack.empty.afterAll fillingPushes
    s.words = [3, 1, 2, 3] ∧
      (s.pop 2).map (fun (popped, next) => (popped.toList, next.words)) = .ok ([3, 1], [2, 3]) ∧
      (∃ next, s.swap 2 = .ok next ∧ next.words = [2, 1, 3, 3] ∧ next.swap 2 = .ok s) ∧
      Column.perform #[3, 2, 1, 3] (.swap 2) = (.ok [], #[3, 3, 1, 2]) ∧
      Column.perform #[3, 2, 1, 3] (.pop 5) = (.error .stackUnderflow, #[3, 2, 1, 3]) ∧
      (full.dup 1023).map Stack.words = .error .stackOverflow ∧
      (full.dup 1024).map Stack.words = .error .stackUnderflow := by
  intro few s full
  obtain ⟨-, -, -, hpop, -, -, hundo, -, -, -, hperform⟩ := stack_acts_as_list few
  obtain ⟨-, -, -, -, hdup, -⟩ := stack_acts_as_list fillingPushes
  have hwords : s.words = [3, 1, 2, 3] := by decide
  have hcolumn : Column.afterAll #[] few = #[3, 2, 1, 3] := by decide
  obtain ⟨next, hnext, hswapped⟩ : ∃ next, s.swap 2 = .ok next ∧ next.words = [2, 1, 3, 3] :=
    ⟨_, rfl, by decide⟩
  have hexchanged : next.column = #[3, 3, 1, 2] := by
    rw [Stack.column, hswapped]
    rfl
  have hact : Stack.Action.apply s (.swap 2) = .ok ([], next) := congrArg (Except.map _) hnext
  rw [hcolumn] at hperform
  refine ⟨hwords, ?_, ⟨next, hnext, hswapped, hundo 2 next hnext⟩, ?_, hperform (.pop 5), ?_, ?_⟩
  · refine (hpop 2).trans ?_
    rw [if_pos (show 2 ≤ s.words.length by rw [hwords]; decide), hwords]
    rfl
  · rw [hperform, hact, ← hexchanged]
  · refine (hdup 1023).trans ?_
    rw [dif_pos (by rw [length_filled]; decide), if_neg (by rw [length_filled]; decide)]
  · refine (hdup 1024).trans ?_
    rw [dif_neg (by rw [length_filled]; decide)]

end Retrace
