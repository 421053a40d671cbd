import Mathlib.Tactic.FinCases
import Retrace.Console.Command
import Retrace.Proofs.Text.Numeral
/-!
# Retrace — the grammar of commands

A line, trimmed, is a command where it is a word of the vocabulary and, behind
the first blank, what the word calls for: nothing that matters, a numeral, or a
numeral that may be missing (`Command.Grammar`). Only the plain blank ends a
word. Lines are read by that grammar and by no other (`read?_eq_some_iff`). The
reader looks a word up in the vocabulary (`ofWord_eq`), and all that is said of
it here is said of its table and of the three things that a word can call for.
-/

namespace Retrace

namespace Command

/-! ## The vocabulary -/

/-- What a command word calls for. -/
inductive Verb where
  /-- Nothing: what is behind the word does not matter. -/
  | alone (command : Command)
  /-- A number. -/
  | numbered (make : Nat → Command)
  /-- A number of snapshots to list, or none. -/
  | counted

/-- The command words there are. -/
def vocabulary : List (String × Verb) :=
  [("s", .alone .step), ("step", .alone .step),
   ("sb", .alone .stepBack), ("step-back", .alone .stepBack),
   ("c", .alone .continueForward), ("continue", .alone .continueForward),
   ("rc", .alone .continueBackward), ("reverse-continue", .alone .continueBackward),
   ("b", .numbered .setBreakpoint), ("break", .numbered .setBreakpoint),
   ("d", .numbered .deleteBreakpoint), ("delete", .numbered .deleteBreakpoint),
   ("g", .numbered .goto), ("goto", .numbered .goto),
   ("i", .alone .info), ("info", .alone .info),
   ("st", .alone .stack), ("stack", .alone .stack),
   ("m", .alone .memory), ("memory", .alone .memory),
   ("ss", .alone .storage), ("storage", .alone .storage),
   ("l", .counted), ("list", .counted),
   ("code", .alone .code),
   ("bp", .alone .breakpoints), ("breakpoints", .alone .breakpoints),
   ("h", .alone .help), ("help", .alone .help),
   ("q", .alone .quit), ("quit", .alone .quit)]

/-- What can stand behind the word of a line: nothing, or a blank and anything. -/
def Tail (tail : List Char) : Prop := ∀ c ∈ tail.head?, c = ' '

/-- **The grammar**: the command of a line without the blanks around it. -/
inductive Grammar : List Char → Command → Prop
  | alone {word : String} {command : Command} {tail : List Char}
      (hword : (word, .alone command) ∈ vocabulary) (htail : Tail tail) :
      Grammar (word.toList ++ tail) command
  | numbered {word : String} {make : Nat → Command} {rest : List Char} {n : Nat}
      (hword : (word, .numbered make) ∈ vocabulary) (hrest : Text.Numeral (Text.trim rest) n)
      (fits : n < quantityBound) : Grammar (word.toList ++ ' ' :: rest) (make n)
  | counted {word : String} {rest : List Char} {n : Nat}
      (hword : (word, .counted) ∈ vocabulary) (hrest : Text.Numeral (Text.trim rest) n)
      (fits : n < quantityBound) : Grammar (word.toList ++ ' ' :: rest) (.list n)
  /-- Five snapshots are listed where there is no numeral of a 64-bit quantity. -/
  | uncounted {word : String} {tail : List Char} (hword : (word, .counted) ∈ vocabulary)
      (htail : Tail tail)
      (hnone : ∀ n, Text.Numeral (Text.trim (tail.drop 1)) n → ¬ n < quantityBound) :
      Grammar (word.toList ++ tail) (.list 5)

/-! ## Looking up a word -/

/-- The command of a verb with its argument. -/
def Verb.command (argument : List Char) : Verb → Except Refusal Command
  | .alone command => .ok command
  | .numbered make => needing make argument
  | .counted => .ok (.list ((Text.numeral? argument).getD defaultListCount))

variable {word : String} {verb : Verb} {tail argument : List Char} {line : String}
  {command : Command} {n : Nat}

/-- **The word decides**, and words outside the vocabulary are refused. -/
theorem ofWord_eq (word : String) (argument : List Char) : ofWord word argument =
    match vocabulary.lookup word with
    | some verb => verb.command argument
    | none => .error (.unknownWord word) := by
  unfold ofWord
  split
  case h_32 =>
    have hnone : vocabulary.lookup word = none := by
      simp only [List.lookup_eq_none_iff, vocabulary, List.forall_mem_cons, bne_iff_ne,
        List.not_mem_nil, false_imp_iff, implies_true, and_true]
      and_intros <;> assumption
    rw [hnone]
  all_goals rfl

/-- No word is in the vocabulary twice. -/
theorem lookup_of_mem (h : (word, verb) ∈ vocabulary) : vocabulary.lookup word = some verb := by
  have hall : ∀ entry ∈ vocabulary, vocabulary.lookup entry.1 = some entry.2 := by
    intro entry hentry
    fin_cases hentry <;> rfl
  exact hall _ h

/-- Words have no blank in them. -/
theorem blank_not_mem (h : (word, verb) ∈ vocabulary) : ' ' ∉ word.toList := by
  have hall : ∀ text ∈ vocabulary.map Prod.fst, ' ' ∉ text.toList := by decide
  exact hall word (List.mem_map_of_mem h)

/-! ## Taking a line apart -/

theorem takeWhile_word (hword : ' ' ∉ word.toList) (htail : Tail tail) :
    (word.toList ++ tail).takeWhile (· ≠ ' ') = word.toList := by
  have hinside : ∀ c ∈ word.toList, decide (c ≠ ' ') = true := by
    intro c hc
    rw [decide_eq_true_iff]
    rintro rfl
    exact hword hc
  rw [List.takeWhile_append_of_pos hinside]
  cases tail with
  | nil => simp
  | cons c rest =>
    obtain rfl := htail c rfl
    simp

theorem dropWhile_word (hword : ' ' ∉ word.toList) (htail : Tail tail) :
    (word.toList ++ tail).dropWhile (· ≠ ' ') = tail := by
  have hsplit := List.takeWhile_append_dropWhile (p := (· ≠ ' ')) (l := word.toList ++ tail)
  rw [takeWhile_word hword htail] at hsplit
  exact List.append_cancel_left hsplit

/-- Every text is a word and what is behind it. -/
theorem exists_word (text : List Char) :
    ∃ (word : String) (tail : List Char), ' ' ∉ word.toList ∧ Tail tail ∧
      text = word.toList ++ tail := by
  refine ⟨String.ofList (text.takeWhile (· ≠ ' ')), text.dropWhile (· ≠ ' '), ?_, ?_, ?_⟩
  · rw [String.toList_ofList]
    intro h
    simpa using List.mem_takeWhile_imp h
  · intro c hc
    have hhead := List.head?_dropWhile_not (· ≠ ' ') text
    rw [Option.mem_def.1 hc] at hhead
    simpa using hhead
  · rw [String.toList_ofList, List.takeWhile_append_dropWhile]

/-- A line is read by its word and what is behind the blank. -/
theorem read?_eq (hline : Text.trim line.toList = word.toList ++ tail) (hword : ' ' ∉ word.toList)
    (htail : Tail tail) : read? line = (ofWord word (tail.drop 1)).toOption := by
  rw [read?, read, hline, takeWhile_word hword htail, dropWhile_word hword htail,
    String.ofList_toList]
  split
  · rename_i hempty
    -- the empty word is none of the vocabulary either
    have hnil := List.isEmpty_iff.1 hempty
    obtain ⟨hnone, -⟩ := List.append_eq_nil_iff.1 hnil
    obtain rfl : word = "" := String.toList_inj.1 hnone
    rfl
  · rfl

/-- **A line with a word of the vocabulary.** -/
theorem read?_of_verb (hline : Text.trim line.toList = word.toList ++ tail)
    (hverb : (word, verb) ∈ vocabulary) (htail : Tail tail) :
    read? line = (verb.command (tail.drop 1)).toOption := by
  rw [read?_eq hline (blank_not_mem hverb) htail, ofWord_eq, lookup_of_mem hverb]

/-- **No other line is a command.** -/
theorem exists_verb (h : read? line = some command) :
    ∃ (word : String) (verb : Verb) (tail : List Char), (word, verb) ∈ vocabulary ∧ Tail tail ∧
      Text.trim line.toList = word.toList ++ tail ∧
      (verb.command (tail.drop 1)).toOption = some command := by
  obtain ⟨word, tail, hblank, htail, hsplit⟩ := exists_word (Text.trim line.toList)
  rw [read?_eq hsplit hblank htail, ofWord_eq] at h
  split at h
  · rename_i verb hlookup
    obtain ⟨before, after, hvocabulary, -⟩ := List.lookup_eq_some_iff.1 hlookup
    have hverb : (word, verb) ∈ vocabulary := by simp [hvocabulary]
    exact ⟨word, verb, tail, hverb, htail, hsplit, h⟩
  · cases h

/-! ## What the words call for -/

theorem toOption_needing (make : Nat → Command) (argument : List Char) :
    (needing make argument).toOption = (Text.numeral? argument).map make := by
  rw [needing]
  cases Text.numeral? argument with
  | none => rfl
  | some n => rfl

/-- A number that is read stands behind a blank. -/
theorem exists_rest (htail : Tail tail) (h : Text.numeral? (tail.drop 1) = some n) :
    ∃ rest, tail = ' ' :: rest ∧ Text.Numeral (Text.trim rest) n ∧ n < quantityBound := by
  cases tail with
  | nil => cases h
  | cons c rest =>
    obtain rfl := htail c rfl
    exact ⟨rest, rfl, Text.numeral_of_numeral? h⟩

theorem numeral?_of_fits (h : Text.Numeral (Text.trim argument) n) (fits : n < quantityBound) :
    Text.numeral? argument = some n := by
  rw [Text.numeral?_of_numeral h, quantity?, if_pos fits]

theorem grammar_of_read? (h : read? line = some command) :
    Grammar (Text.trim line.toList) command := by
  obtain ⟨word, verb, tail, hverb, htail, hsplit, hcommand⟩ := exists_verb h
  rw [hsplit]
  cases verb with
  | alone other =>
    obtain rfl : other = command := Option.some.inj hcommand
    exact .alone hverb htail
  | numbered make =>
    rw [Verb.command, toOption_needing] at hcommand
    obtain ⟨n, hn, rfl⟩ := Option.map_eq_some_iff.1 hcommand
    obtain ⟨rest, rfl, hnumeral, fits⟩ := exists_rest htail hn
    exact .numbered hverb hnumeral fits
  | counted =>
    obtain rfl := Option.some.inj hcommand
    cases hn : Text.numeral? (tail.drop 1) with
    | none =>
      refine .uncounted hverb htail fun n hnumeral fits => ?_
      rw [numeral?_of_fits hnumeral fits] at hn
      cases hn
    | some n =>
      obtain ⟨rest, rfl, hnumeral, fits⟩ := exists_rest htail hn
      exact .counted hverb hnumeral fits

theorem tail_cons (rest : List Char) : Tail (' ' :: rest) := by
  intro c hc
  exact (Option.some.inj hc).symm

theorem read?_of_grammar (h : Grammar (Text.trim line.toList) command) :
    read? line = some command := by
  generalize hline : Text.trim line.toList = text at h
  cases h with
  | alone hword htail => exact read?_of_verb hline hword htail
  | numbered hword hrest fits =>
    rw [read?_of_verb hline hword (tail_cons _), Verb.command, toOption_needing]
    exact congrArg (Option.map _) (numeral?_of_fits hrest fits)
  | @counted _ rest n hword hrest fits =>
    have hcount : Text.numeral? ((' ' :: rest).drop 1) = some n := numeral?_of_fits hrest fits
    rw [read?_of_verb hline hword (tail_cons _), Verb.command, hcount]
    rfl
  | @uncounted _ tail hword htail hnone =>
    have hcount : Text.numeral? (tail.drop 1) = none := by
      rw [Option.eq_none_iff_forall_ne_some]
      intro n hn
      obtain ⟨hnumeral, fits⟩ := Text.numeral_of_numeral? hn
      exact hnone n hnumeral fits
    rw [read?_of_verb hline hword htail, Verb.command, hcount]
    rfl

/-- **Lines are read by the grammar.** -/
theorem read?_eq_some_iff : read? line = some command ↔ Grammar (Text.trim line.toList) command :=
  ⟨grammar_of_read?, read?_of_grammar⟩

/-! ## A word and a numeral -/

/-- A word of the vocabulary and a numeral make a line without blanks around it. -/
theorem trim_word_numeral {text : List Char} (hverb : (word, verb) ∈ vocabulary)
    (hnumeral : Text.Numeral text n) :
    Text.trim (word ++ " " ++ String.ofList text).toList = word.toList ++ ' ' :: text := by
  have hwords : ∀ word ∈ vocabulary.map Prod.fst,
      word.toList.head?.map Text.isBlank = some false := by decide
  obtain ⟨first, hfirst, hblank⟩ :=
    Option.map_eq_some_iff.1 (hwords word (List.mem_map_of_mem hverb))
  have hline : (word ++ " " ++ String.ofList text).toList = word.toList ++ ' ' :: text := by
    simp [String.toList_append]
  rw [hline]
  apply Text.trim_eq_self
  constructor
  · intro c hc
    rw [List.head?_append, hfirst] at hc
    obtain rfl := Option.some.inj hc
    exact hblank
  · intro c hc
    rw [List.append_cons, List.getLast?_append_of_ne_nil _ hnumeral.ne_nil] at hc
    exact hnumeral.not_blank c (List.mem_of_getLast? hc)

theorem read?_word_numeral {text : List Char} (hverb : (word, verb) ∈ vocabulary)
    (hnumeral : Text.Numeral text n) :
    read? (word ++ " " ++ String.ofList text) = (verb.command text).toOption :=
  read?_of_verb (trim_word_numeral hverb hnumeral) hverb (tail_cons text)

/-- The argument of such a line is the value of the numeral, if that is a 64-bit quantity. -/
theorem numeral?_eq_ite {text : List Char} (hnumeral : Text.Numeral text n) :
    Text.numeral? text = if n < quantityBound then some n else none := by
  have htrim : Text.trim text = text :=
    Text.trim_eq_self (Text.bare_of_forall hnumeral.not_blank)
  exact Text.numeral?_of_numeral (htrim.symm ▸ hnumeral)

theorem read?_numbered {make : Nat → Command} {text : List Char}
    (hverb : (word, .numbered make) ∈ vocabulary) (hnumeral : Text.Numeral text n) :
    read? (word ++ " " ++ String.ofList text) =
      if n < quantityBound then some (make n) else none := by
  rw [read?_word_numeral hverb hnumeral, Verb.command, toOption_needing,
    numeral?_eq_ite hnumeral]
  split
  · rfl
  · rfl

theorem read?_counted {text : List Char} (hverb : (word, .counted) ∈ vocabulary)
    (hnumeral : Text.Numeral text n) :
    read? (word ++ " " ++ String.ofList text) =
      some (.list (if n < quantityBound then n else 5)) := by
  rw [read?_word_numeral hverb hnumeral, Verb.command, numeral?_eq_ite hnumeral]
  split
  · rfl
  · rfl

end Command

/-- **Lines are read by the grammar of commands**, and by no other; the blanks around a line do not
matter. A word that needs a number, with a numeral behind it, is that command for the value of the
numeral, and no command where the value is not a 64-bit quantity; a list is then of the usual
length. So no number is cut to fit, and both texts that a breakpoint is shown with set it again. -/
theorem lines_read_by_grammar :
    (∀ (line : String) (command : Command),
      Command.read? line = some command ↔ Command.Grammar (Text.trim line.toList) command) ∧
    (∀ line : String,
      Command.read? (String.ofList (Text.trim line.toList)) = Command.read? line) ∧
    (∀ (text : List Char) (n : Nat), Text.Numeral text n →
      (∀ word make, (word, .numbered make) ∈ Command.vocabulary →
        Command.read? (word ++ " " ++ String.ofList text) =
          if n < quantityBound then some (make n) else none) ∧
      ∀ word, (word, .counted) ∈ Command.vocabulary →
        Command.read? (word ++ " " ++ String.ofList text) =
          some (.list (if n < quantityBound then n else 5))) ∧
    ∀ n < quantityBound,
      Command.read? ("b " ++ Text.decimal n) = some (.setBreakpoint n) ∧
      Command.read? ("b " ++ Text.offset n) = some (.setBreakpoint n) := by
  refine ⟨fun line command => Command.read?_eq_some_iff, fun line => ?_, fun text n hnumeral =>
    ⟨fun word make hword => Command.read?_numbered hword hnumeral,
      fun word hword => Command.read?_counted hword hnumeral⟩, fun n fits => ?_⟩
  · ext command
    rw [Command.read?_eq_some_iff, Command.read?_eq_some_iff, String.toList_ofList,
      Text.trim_trim]
  · have hword : ("b", .numbered .setBreakpoint) ∈ Command.vocabulary := by
      simp [Command.vocabulary]
    have hdecimal := Command.read?_numbered hword (Text.numeral_decimal n)
    have hoffset := Command.read?_numbered hword (Text.numeral_offset n)
    rw [String.ofList_toList, if_pos fits] at hdecimal hoffset
    exact ⟨hdecimal, hoffset⟩

/-- Around a line and behind the blank other blanks are passed over, and a marker, a sign and the
case of a digit do not matter. The least number that is not a 64-bit quantity is not read as zero,
and an offset is read as the number it shows. -/
theorem lines_read_by_grammar_of_wide :
    let wide := "18446744073709551616"
    Command.read? "\t goto \t0X+fF\n" = some (.goto 255) ∧
    Text.Numeral wide.toList quantityBound ∧
    Command.read? ("b" ++ " " ++ String.ofList wide.toList) = none ∧
    Command.read? ("l" ++ " " ++ String.ofList wide.toList) = some (.list 5) ∧
    255 < quantityBound ∧ Command.read? ("b " ++ Text.offset 255) = some (.setBreakpoint 255) := by
  intro wide
  obtain ⟨hgrammar, -, hnumerals, hshown⟩ := lines_read_by_grammar
  have hline : Text.trim "\t goto \t0X+fF\n".toList = "goto".toList ++ ' ' :: "\t0X+fF".toList := by
    decide +kernel
  have hdigits : Text.Digits 16 ['f', 'F'] [15, 15] := ⟨by decide, by decide⟩
  have hhex : Text.Numeral (Text.trim "\t0X+fF".toList) 255 :=
    .hexadecimal (.inr rfl) (.plus (List.cons_ne_nil _ _) ⟨[15, 15], hdigits, rfl⟩)
  have hgoto : Command.Grammar (Text.trim "\t goto \t0X+fF\n".toList) (.goto 255) := by
    have hword : ("goto", Command.Verb.numbered .goto) ∈ Command.vocabulary := by
      simp [Command.vocabulary]
    rw [hline]
    exact .numbered hword hhex (by decide)
  have hwide : Text.Numeral wide.toList quantityBound := by
    have hdecimal : Text.decimal quantityBound = wide := by decide +kernel
    rw [← hdecimal]
    exact Text.numeral_decimal quantityBound
  obtain ⟨hnumbered, hcounted⟩ := hnumerals _ _ hwide
  have hb := hnumbered "b" .setBreakpoint (by simp [Command.vocabulary])
  have hl := hcounted "l" (by simp [Command.vocabulary])
  rw [if_neg (Nat.lt_irrefl _)] at hb hl
  have hfits : 255 < quantityBound := by decide
  exact ⟨(hgrammar _ _).2 hgoto, hwide, hb, hl, hfits, (hshown 255 hfits).2⟩

end Retrace
