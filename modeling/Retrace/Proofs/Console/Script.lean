import Mathlib.Data.Finset.Dedup
import Mathlib.Data.Finset.Insert
import Mathlib.Data.Finset.Erase
import Retrace.Launch
/-!
# Retrace — looking changes nothing

A script is the lines that an operator gives, and it counts up to the first
that quits. Of the commands some move the session, two change the set of
breakpoints, and the rest only look. A line that looks, or that is no command at
all, leaves the console as it is (`answer_of_looks`), so that it can be left out
of a script: the other lines are answered with the same texts, and the console
comes to the same end. What a script makes of the breakpoints is told by its
commands alone, whatever the session does.
-/

namespace Retrace

/-! ## Breakpoints as finite sets -/

namespace Breakpoints

variable (b : Breakpoints)

/-- The set of the offsets. -/
def toFinset : Finset Nat := b.offsets.toFinset

theorem contains_eq_true_iff (pc : Nat) : b.contains pc = true ↔ pc ∈ b.toFinset := by
  rw [contains, List.contains_iff_mem, toFinset, List.mem_toFinset]

theorem toFinset_insert (pc : Nat) : (b.insert pc).toFinset = Insert.insert pc b.toFinset := by
  ext other
  rw [toFinset, List.mem_toFinset, Finset.mem_insert, toFinset, List.mem_toFinset]
  exact mem_insertAscending

theorem toFinset_erase (pc : Nat) : (b.erase pc).toFinset = b.toFinset.erase pc := by
  ext other
  rw [toFinset, List.mem_toFinset, Finset.mem_erase, toFinset, List.mem_toFinset, erase,
    List.mem_filter, bne_iff_ne, and_comm]

end Breakpoints

/-! ## What a command does -/

namespace Command

/-- Whether a command only looks. -/
def looks : Command → Bool
  | .info | .stack | .memory | .storage | .list _ | .code | .breakpoints | .help => true
  | _ => false

/-- What a command makes of the set of breakpoints. -/
def edit (offsets : Finset Nat) : Command → Finset Nat
  | .setBreakpoint pc => insert pc offsets
  | .deleteBreakpoint pc => offsets.erase pc
  | _ => offsets

end Command

namespace Console

variable {c : Console} {command : Command}

/-- **To look changes nothing.** -/
theorem execute_of_looks (h : command.looks = true) : (c.execute command).1 = c := by
  cases command with
  | info | stack | memory | storage | list | code | breakpoints | help => rfl
  | _ => cases h

/-- **Of the commands two change the breakpoints and one quits.** -/
theorem execute_edits (c : Console) (command : Command) :
    (c.execute command).1.breakpoints.toFinset = command.edit c.breakpoints.toFinset ∧
      ((c.execute command).2 = .quit ↔ command = .quit) := by
  cases command with
  | quit => exact ⟨rfl, fun _ => rfl, fun _ => rfl⟩
  | setBreakpoint pc => exact ⟨c.breakpoints.toFinset_insert pc, nofun, nofun⟩
  | deleteBreakpoint pc =>
    rw [execute, deleteBreakpoint]
    split
    · exact ⟨c.breakpoints.toFinset_erase pc, nofun, nofun⟩
    · rename_i habsent
      rw [Breakpoints.contains_eq_true_iff] at habsent
      exact ⟨(Finset.erase_eq_of_notMem habsent).symm, nofun, nofun⟩
  -- what moves the session hands the breakpoints on, whether or not it can move
  | step =>
    rw [execute, stepForward]
    split <;> exact ⟨rfl, nofun, nofun⟩
  | stepBack =>
    rw [execute, stepBack]
    split <;> exact ⟨rfl, nofun, nofun⟩
  | goto step =>
    rw [execute, goto]
    dsimp only
    split <;> exact ⟨rfl, nofun, nofun⟩
  | continueForward | continueBackward => exact ⟨rfl, nofun, nofun⟩
  | info | stack | memory | storage | list | code | breakpoints | help =>
    exact ⟨rfl, nofun, nofun⟩

end Console

namespace Launch

variable {c : Console} {line : String}

/-! ## A line -/

/-- Whether a line only looks: it is no command, or one that only looks. -/
def looks (line : String) : Bool := (Command.read? line).all Command.looks

/-- The console that a line leads to is that of its command, if it has one. -/
theorem answer_fst (c : Console) (line : String) :
    (answer c line).1 = ((Command.read? line).map fun command => (c.execute command).1).getD c := by
  rw [answer, Command.read?]
  rcases Command.read line with refusal | command
  · cases refusal <;> rfl
  · dsimp only
    split <;> rename_i heq <;> exact (congrArg Prod.fst heq).symm

/-- A line quits if its command does. -/
theorem answer_eq_quit_iff (c : Console) (line : String) :
    (answer c line).2 = .quit ↔ Command.read? line = some .quit := by
  rw [answer, Command.read?]
  rcases Command.read line with refusal | command
  · cases refusal <;> exact ⟨nofun, nofun⟩
  · obtain ⟨-, hquit⟩ := c.execute_edits command
    dsimp only
    split
    · rename_i heq
      rw [heq] at hquit
      refine ⟨nofun, fun h => ?_⟩
      cases hquit.2 (Option.some.inj h)
    · rename_i heq
      rw [heq] at hquit
      exact ⟨fun _ => congrArg some (hquit.1 rfl), fun _ => rfl⟩

/-- **A line that only looks leaves the console as it is.** -/
theorem answer_of_looks (h : looks line = true) :
    (answer c line).1 = c ∧ (answer c line).2 ≠ .quit := by
  rw [answer_fst, Ne, answer_eq_quit_iff]
  unfold looks at h
  cases hread : Command.read? line with
  | none => exact ⟨rfl, nofun⟩
  | some command =>
    rw [hread] at h
    refine ⟨Console.execute_of_looks h, fun hquit => ?_⟩
    cases hquit
    cases h

/-! ## Scripts -/

/-- The answers to the lines of a script, as far as it counts. -/
def answers (c : Console) : List String → List Answer
  | [] => []
  | line :: rest =>
    let (next, given) := answer c line
    if given = .quit then [given] else given :: answers next rest

/-- The commands of a script, as far as it counts. -/
def commands (lines : List String) : List Command :=
  (lines.filterMap Command.read?).takeWhile (· ≠ .quit)

theorem commands_cons {command : Command} (hread : Command.read? line = some command)
    (h : command ≠ .quit) (rest : List String) :
    commands (line :: rest) = command :: commands rest := by
  rw [commands, List.filterMap_cons_some hread]
  exact List.takeWhile_cons_of_pos (decide_eq_true h)

/-- The texts among answers, and the complaints. -/
def texts (given : List Answer) : List String × List String :=
  (given.filterMap fun | .printed text => some text | _ => none,
    given.filterMap fun | .rejected text => some text | _ => none)

/-- The entries of a list that are not marked to be left out. -/
def keep {α : Type} : List Bool → List α → List α
  | [], rest => rest
  | _ :: _, [] => []
  | true :: marks, entry :: rest => entry :: keep marks rest
  | false :: marks, _ :: rest => keep marks rest

theorem keep_nil {α : Type} (marks : List Bool) : keep marks ([] : List α) = [] := by
  cases marks <;> rfl

theorem answers_cons_of_quit (h : (answer c line).2 = .quit) (rest : List String) :
    answers c (line :: rest) = [.quit] ∧ (converse c (line :: rest)).1 = (answer c line).1 := by
  rw [answers, converse]
  generalize answer c line = reached at h ⊢
  obtain ⟨next, given⟩ := reached
  cases h
  exact ⟨rfl, rfl⟩

theorem answers_cons_of_ne_quit (h : (answer c line).2 ≠ .quit) (rest : List String) :
    answers c (line :: rest) = (answer c line).2 :: answers (answer c line).1 rest ∧
      (converse c (line :: rest)).1 = (converse (answer c line).1 rest).1 := by
  rw [answers, converse]
  generalize answer c line = reached at h ⊢
  obtain ⟨next, given⟩ := reached
  cases given with
  | quit => exact absurd rfl h
  | silence | printed | rejected => exact ⟨rfl, rfl⟩

/-- **What a conversation prints are its answers.** -/
theorem converse_snd (c : Console) (lines : List String) :
    (converse c lines).2 = texts (answers c lines) := by
  induction lines generalizing c with
  | nil => rfl
  | cons line rest ih =>
    rw [answers, converse]
    generalize answer c line = reached
    obtain ⟨next, given⟩ := reached
    cases given with
    | quit => rfl
    | silence => exact ih next
    | printed text =>
      show (text :: (converse next rest).2.1, (converse next rest).2.2) = _
      rw [ih next]
      rfl
    | rejected text =>
      show ((converse next rest).2.1, text :: (converse next rest).2.2) = _
      rw [ih next]
      rfl

/-- **A script can do without lines that look.** -/
theorem answers_keep (c : Console) (lines : List String) (marks : List Bool)
    (looking : ∀ entry ∈ marks.zip lines, entry.1 = false → looks entry.2 = true) :
    answers c (keep marks lines) = keep marks (answers c lines) ∧
      (converse c (keep marks lines)).1 = (converse c lines).1 := by
  induction lines generalizing c marks with
  | nil =>
    rw [keep_nil, answers, keep_nil]
    exact ⟨rfl, rfl⟩
  | cons line rest ih =>
    cases marks with
    | nil => exact ⟨rfl, rfl⟩
    | cons mark marks =>
      obtain ⟨hline, hrest⟩ := List.forall_mem_cons.1 looking
      cases mark with
      | false =>
        obtain ⟨hsame, hgoes⟩ := answer_of_looks (c := c) (hline rfl)
        obtain ⟨hanswers, hend⟩ := answers_cons_of_ne_quit hgoes rest
        rw [hsame] at hanswers hend
        rw [hanswers, hend]
        exact ih c marks hrest
      | true =>
        rw [keep]
        by_cases hquit : (answer c line).2 = .quit
        -- behind a quit nothing counts, whether it is kept or not
        · obtain ⟨hanswers, hend⟩ := answers_cons_of_quit hquit rest
          obtain ⟨hanswers', hend'⟩ := answers_cons_of_quit hquit (keep marks rest)
          rw [hanswers, hend, hanswers', hend', keep, keep_nil]
          exact ⟨rfl, rfl⟩
        · obtain ⟨hanswers, hend⟩ := answers_cons_of_ne_quit hquit rest
          obtain ⟨hanswers', hend'⟩ := answers_cons_of_ne_quit hquit (keep marks rest)
          obtain ⟨hkept, hsame⟩ := ih (answer c line).1 marks hrest
          rw [hanswers, hend, hanswers', hend', hkept, hsame, keep]
          exact ⟨rfl, rfl⟩

/-- **The breakpoints are what the commands make of them.** -/
theorem toFinset_converse (c : Console) (lines : List String) :
    (converse c lines).1.breakpoints.toFinset =
      (commands lines).foldl Command.edit c.breakpoints.toFinset := by
  induction lines generalizing c with
  | nil => rfl
  | cons line rest ih =>
    have hquit := answer_eq_quit_iff c line
    have hnext := answer_fst c line
    cases hread : Command.read? line with
    | none =>
      rw [hread] at hquit hnext
      obtain ⟨-, hend⟩ := answers_cons_of_ne_quit (fun h => nomatch hquit.1 h) rest
      rw [hend, hnext, commands, List.filterMap_cons_none hread]
      exact ih c
    | some command =>
      obtain ⟨hedit, -⟩ := c.execute_edits command
      rw [hread] at hquit hnext
      by_cases h : command = .quit
      · subst h
        obtain ⟨-, hend⟩ := answers_cons_of_quit (hquit.2 rfl) rest
        rw [hend, hnext, commands, List.filterMap_cons_some hread]
        rfl
      · have hgoes : (answer c line).2 ≠ .quit := fun hq => h (Option.some.inj (hquit.1 hq))
        obtain ⟨-, hend⟩ := answers_cons_of_ne_quit hgoes rest
        rw [hend, ih, hnext, commands_cons hread h, List.foldl_cons, ← hedit]
        rfl

end Launch

/-- **Looking changes nothing.** Any of the lines of a script that only look, or are no commands,
can be left out: the lines that are kept have the same answers, so that the same texts are printed,
and the console at the end is the same, its session with log and cursor as much as its breakpoints.
These are the breakpoints of the start with those that the script sets and without those that it
deletes, one command after the other. -/
theorem looking_changes_nothing (c : Console) (lines : List String) (marks : List Bool)
    (looking : ∀ entry ∈ marks.zip lines, entry.1 = false → Launch.looks entry.2 = true) :
    let kept := Launch.keep marks lines
    let given := Launch.answers c lines
    Launch.answers c kept = Launch.keep marks given ∧
    (Launch.converse c lines).2 = Launch.texts given ∧
    (Launch.converse c kept).2 = Launch.texts (Launch.keep marks given) ∧
    (Launch.converse c kept).1 = (Launch.converse c lines).1 ∧
    (Launch.converse c lines).1.breakpoints.toFinset =
      (Launch.commands lines).foldl Command.edit c.breakpoints.toFinset := by
  intro kept given
  obtain ⟨hanswers, hend⟩ := Launch.answers_keep c lines marks looking
  refine ⟨hanswers, Launch.converse_snd c lines, ?_, hend, Launch.toFinset_converse c lines⟩
  rw [Launch.converse_snd, hanswers]

/-- A console on a code that adds two numbers. -/
def addingConsole : Console :=
  .start (.start ⟨⟨.load (.ofList [0x60, 0x01, 0x60, 0x02, 0x01]), .blank⟩, .reference⟩ 10) 10 2

/-- A script that looks at memory and at the list, and has a line that is no command, comes to the
breakpoint that it has set; without the three lines it comes there as well. -/
theorem looking_changes_nothing_of_script :
    let lines := ["step", "memory", "b 4", "b 9", "what", "continue", "list 3", "d 0x9", "quit", "s"]
    let kept := ["step", "b 4", "b 9", "continue", "d 0x9", "quit", "s"]
    let final := (Launch.converse addingConsole lines).1
    (Launch.converse addingConsole kept).1 = final ∧ final.session.position = 2 ∧
      final.session.current.pc = 4 ∧ final.breakpoints.toFinset = {4} ∧
      (Launch.answers addingConsole kept).length = 6 := by
  intro lines kept final
  have looking : ∀ entry ∈ [true, false, true, true, false, true, false].zip lines,
      entry.1 = false → Launch.looks entry.2 = true := by
    decide +kernel
  obtain ⟨hanswers, -, -, hend, hbreakpoints⟩ :=
    looking_changes_nothing addingConsole lines _ looking
  refine ⟨hend, by decide +kernel, by decide +kernel, ?_, ?_⟩
  · rw [hbreakpoints]
    decide +kernel
  · exact (congrArg List.length hanswers).trans (by decide +kernel)

end Retrace
