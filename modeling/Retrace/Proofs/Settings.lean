import Retrace.Launch
import Retrace.Proofs.Results
/-!
# Retrace — settings that can be used

What is wrong with settings is said of each of them by itself, and `validate`
names what is wrong with the first. The two texts are read once when the
settings are validated and once more when the session is made. The second
reading cannot fail where the first did not, so the only sessions that cannot
be made are those of settings that were refused, and a document that was read
leads to a session with every code. So does a document with options over it, if
what the options say would have been accepted in the document.
-/

namespace Retrace

namespace Settings

/-! ## What is wrong with settings -/

/-- A setting that cannot be used, looked at without the others. -/
inductive Wrong (s : Settings) : Invalid → Prop
  | gasLimit (h : s.gasLimit = 0) : Wrong s .gasLimit
  | listingHeight (h : s.listingHeight = 0) : Wrong s .listingHeight
  | stepLimit (h : s.stepLimit = 0) : Wrong s .stepLimit
  | callData {cause : HexText.Invalid} (h : HexText.readBytes s.callData = .error cause) :
    Wrong s (.callData cause)
  | callValue {cause : HexText.Invalid} (h : HexText.readWord s.callValue = .error cause) :
    Wrong s (.callValue cause)

/-- The place of a setting in the order in which they are checked. -/
def Invalid.place : Invalid → Nat
  | .gasLimit => 0
  | .listingHeight => 1
  | .stepLimit => 2
  | .callData _ => 3
  | .callValue _ => 4

/-- What is wrong with the first setting that cannot be used. -/
def FirstWrong (s : Settings) (flaw : Invalid) : Prop :=
  s.Wrong flaw ∧ ∀ other, s.Wrong other → flaw.place ≤ other.place

/-- Settings that a session can be made of: no size is zero and both texts are read. -/
structure Usable (s : Settings) : Prop where
  gasLimit : s.gasLimit ≠ 0
  listingHeight : s.listingHeight ≠ 0
  stepLimit : s.stepLimit ≠ 0
  callData : ∃ data, HexText.readBytes s.callData = .ok data
  callValue : ∃ value, HexText.readWord s.callValue = .ok value

variable {s : Settings} {flaw other : Invalid}

/-- One thing at most is wrong with a setting. -/
theorem Wrong.eq_of_place (h : s.Wrong flaw) (h' : s.Wrong other)
    (same : flaw.place = other.place) : flaw = other := by
  cases h <;> cases h' <;> simp_all [Invalid.place]

/-- One thing at most is wrong with the first. -/
theorem FirstWrong.unique (h : s.FirstWrong flaw) (h' : s.FirstWrong other) : flaw = other :=
  h.1.eq_of_place h'.1 (Nat.le_antisymm (h.2 other h'.1) (h'.2 flaw h.1))

/-- Nothing is wrong with settings that can be used. -/
theorem Usable.not_wrong (h : s.Usable) : ¬ s.Wrong flaw := by
  obtain ⟨hgas, hheight, hsteps, ⟨data, hdata⟩, ⟨value, hvalue⟩⟩ := h
  intro hflaw
  cases hflaw <;> simp_all

/-! ## Validation -/

/-- **Settings are refused for the first that is wrong, or they can be used.** The cases are the
checks in their order: each is reached with those before it passed. -/
theorem validate_cases (s : Settings) :
    (∃ flaw, s.validate = .error flaw ∧ s.FirstWrong flaw) ∨ (s.validate = .ok () ∧ s.Usable) := by
  by_cases hgas : s.gasLimit = 0
  · refine .inl ⟨.gasLimit, by simp only [validate, if_pos hgas]; rfl, .gasLimit hgas, ?_⟩
    intro other _
    exact Nat.zero_le _
  by_cases hheight : s.listingHeight = 0
  · refine .inl ⟨.listingHeight, by simp only [validate, if_neg hgas, if_pos hheight]; rfl,
      .listingHeight hheight, ?_⟩
    intro other hother
    cases hother <;> simp_all [Invalid.place]
  by_cases hsteps : s.stepLimit = 0
  · refine .inl ⟨.stepLimit,
      by simp only [validate, if_neg hgas, if_neg hheight, if_pos hsteps]; rfl,
      .stepLimit hsteps, ?_⟩
    intro other hother
    cases hother <;> simp_all [Invalid.place]
  cases hdata : HexText.readBytes s.callData with
  | error cause =>
    refine .inl ⟨.callData cause,
      by simp only [validate, if_neg hgas, if_neg hheight, if_neg hsteps, hdata]; rfl,
      .callData hdata, ?_⟩
    intro other hother
    cases hother <;> simp_all [Invalid.place]
  | ok data =>
    cases hvalue : HexText.readWord s.callValue with
    | error cause =>
      refine .inl ⟨.callValue cause,
        by simp only [validate, if_neg hgas, if_neg hheight, if_neg hsteps, hdata, hvalue]; rfl,
        .callValue hvalue, ?_⟩
      intro other hother
      cases hother <;> simp_all [Invalid.place]
    | ok value =>
      have hok : s.validate = .ok () := by
        simp only [validate, if_neg hgas, if_neg hheight, if_neg hsteps, hdata, hvalue]
        rfl
      exact .inr ⟨hok, hgas, hheight, hsteps, ⟨data, hdata⟩, ⟨value, hvalue⟩⟩

/-- What validation refuses is what is wrong with the first setting that cannot be used. -/
theorem validate_eq_error_iff : s.validate = .error flaw ↔ s.FirstWrong flaw := by
  obtain ⟨first, hfirst, hwrong⟩ | ⟨hok, husable⟩ := s.validate_cases
  · rw [hfirst]
    constructor
    · rintro ⟨⟩
      exact hwrong
    · intro h
      rw [hwrong.unique h]
  · rw [hok]
    constructor
    · rintro ⟨⟩
    · intro h
      exact absurd h.1 husable.not_wrong

/-- What validation lets pass is what can be used. -/
theorem validate_eq_ok_iff : s.validate = .ok () ↔ s.Usable := by
  obtain ⟨first, hfirst, hwrong⟩ | ⟨hok, husable⟩ := s.validate_cases
  · rw [hfirst]
    constructor
    · rintro ⟨⟩
    · intro h
      exact absurd hwrong.1 h.not_wrong
  · simp only [hok, husable]

/-- A document is read only into settings that can be used. -/
theorem usable_of_read {document : String} (h : read document = .ok s) : s.Usable := by
  unfold read at h
  split at h
  · cases h
  · obtain ⟨⟨⟩, hok, h⟩ := bind_eq_ok_iff.1 h
    cases h
    exact validate_eq_ok_iff.1 (mapError_eq_ok_iff.1 hok)

end Settings

/-! ## Options over settings -/

/-- Options of which each that is given could stand in usable settings. -/
structure Options.Usable (o : Options) : Prop where
  gasLimit : ∀ gas ∈ o.gasLimit, gas ≠ 0
  height : ∀ height ∈ o.height, height ≠ 0
  callData : ∀ text ∈ o.callData, ∃ data, HexText.readBytes text = .ok data
  callValue : ∀ text ∈ o.callValue, ∃ value, HexText.readWord text = .ok value

/-- What is true of a default is true of the choice if it is true of what was given. -/
theorem getD_iff_forall {α : Type} (p : α → Prop) (given : Option α) {default : α}
    (h : p default) : p (given.getD default) ↔ ∀ a ∈ given, p a := by
  cases given with
  | none => simpa using h
  | some a => simp

/-- **Over usable settings, options are usable exactly if each that is given is.** -/
theorem Options.usable_override_iff {o : Options} {s : Settings} (h : s.Usable) :
    (o.override s).Usable ↔ o.Usable := by
  have hgas := getD_iff_forall (· ≠ 0) o.gasLimit h.gasLimit
  have hheight := getD_iff_forall (· ≠ 0) o.height h.listingHeight
  have hdata := getD_iff_forall (fun text => ∃ data, HexText.readBytes text = .ok data)
    o.callData h.callData
  have hvalue := getD_iff_forall (fun text => ∃ value, HexText.readWord text = .ok value)
    o.callValue h.callValue
  constructor
  · intro hover
    exact ⟨hgas.1 hover.gasLimit, hheight.1 hover.listingHeight, hdata.1 hover.callData,
      hvalue.1 hover.callValue⟩
  · intro hopt
    exact ⟨hgas.2 hopt.gasLimit, hheight.2 hopt.height, h.stepLimit, hdata.2 hopt.callData,
      hvalue.2 hopt.callValue⟩

/-! ## Sessions from settings -/

/-- The two built-in tables are not the same: one calls subroutines. -/
theorem Table.withSubroutines_ne_reference : withSubroutines ≠ reference := by
  intro h
  have hsame := congrArg supportsSubroutines h
  revert hsame
  decide

namespace Session

variable {code : Bytes} {s : Settings} {session : Session} {e : Error}

/-- The session is the one that settings describe for a code, before its first step. -/
structure Opens (session : Session) (code : Bytes) (s : Settings) : Prop where
  program : session.machine.program = Program.load code
  subroutines : session.machine.table = Table.withSubroutines ↔ s.subroutines = true
  reference : session.machine.table = Table.reference ↔ s.subroutines = false
  callData : HexText.readBytes s.callData = .ok session.machine.env.callData
  callValue : HexText.readWord s.callValue = .ok session.machine.env.callValue
  gasLimit : session.machine.env.gasLimit = s.gasLimit
  stepLimit : session.stepLimit = s.stepLimit
  position : session.position = 0
  size : session.history.size = 1
  running : session.current.halted = none
  unspent : session.current.gasUsed = 0
  gas : session.current.state.gas = s.gasLimit

/-- The built-in tables are told apart by the setting that chooses them. -/
theorem table_eq_iff (s : Settings) :
    (s.table = Table.withSubroutines ↔ s.subroutines = true) ∧
      (s.table = Table.reference ↔ s.subroutines = false) := by
  unfold Settings.table
  cases s.subroutines with
  | true => simp [Table.withSubroutines_ne_reference]
  | false => simp [Table.withSubroutines_ne_reference.symm]

/-- Settings that can be used are a session, with every code. -/
theorem exists_opens (code : Bytes) (h : s.Usable) :
    ∃ session, ofSettings code s = .ok session ∧ session.Opens code s := by
  obtain ⟨data, hdata⟩ := h.callData
  obtain ⟨value, hvalue⟩ := h.callValue
  have hok : s.validate = .ok () := Settings.validate_eq_ok_iff.2 h
  let env : Environment :=
    { Environment.blank with callData := data, callValue := value, gasLimit := s.gasLimit }
  have henv : s.environment = .ok env := by
    simp only [Settings.environment, hdata, hvalue]
    rfl
  refine ⟨start ⟨⟨Program.load code, env⟩, s.table⟩ s.stepLimit, ?_, ?_⟩
  · simp only [ofSettings, hok, henv]
    rfl
  · exact {
      program := rfl
      subroutines := (table_eq_iff s).1
      reference := (table_eq_iff s).2
      callData := hdata
      callValue := hvalue
      gasLimit := rfl
      stepLimit := rfl
      position := rfl
      size := rfl
      running := rfl
      unspent := rfl
      gas := rfl }

/-- **Where validation refuses the settings, that is the error; else there is a session.** -/
theorem ofSettings_cases (code : Bytes) (s : Settings) :
    (∃ flaw, s.validate = .error flaw ∧ ofSettings code s = .error (.settings flaw)) ∨
      (s.Usable ∧ ∃ session, ofSettings code s = .ok session ∧ session.Opens code s) := by
  obtain ⟨flaw, hflaw, -⟩ | ⟨-, husable⟩ := s.validate_cases
  · refine .inl ⟨flaw, hflaw, ?_⟩
    simp only [ofSettings, hflaw]
    rfl
  · exact .inr ⟨husable, exists_opens code husable⟩

/-- The errors of making a session are the refusals of validation. -/
theorem ofSettings_eq_error_iff :
    ofSettings code s = .error e ↔ ∃ flaw, s.validate = .error flaw ∧ e = .settings flaw := by
  obtain ⟨flaw, hflaw, hfail⟩ | ⟨husable, session, hsession, -⟩ := ofSettings_cases code s
  · simp only [hfail, hflaw, Except.error.injEq, exists_eq_left', eq_comm]
  · have hok : s.validate = .ok () := Settings.validate_eq_ok_iff.2 husable
    simp [hsession, hok]

/-- A session that was made is the one that usable settings describe. -/
theorem opens_of_ofSettings (h : ofSettings code s = .ok session) :
    s.Usable ∧ session.Opens code s := by
  obtain ⟨flaw, -, hfail⟩ | ⟨husable, made, hmade, hopens⟩ := ofSettings_cases code s
  · rw [h] at hfail
    cases hfail
  · rw [h] at hmade
    cases hmade
    exact ⟨husable, hopens⟩

/-- A session can be made of settings exactly if they can be used. -/
theorem exists_ofSettings_iff : (∃ session, ofSettings code s = .ok session) ↔ s.Usable := by
  constructor
  · rintro ⟨session, hsession⟩
    exact (opens_of_ofSettings hsession).1
  · intro h
    obtain ⟨session, hsession, -⟩ := exists_opens code h
    exact ⟨session, hsession⟩

end Session

/-! ## Validation and construction -/

/-- **Validation decides which sessions can be made.** Settings are refused for the first that is
wrong, in the order of the checks. The refusal is the only error there can be where a session is
made; a text that was accepted is never refused when it is read again. What is made stands on its
first step, with all the gas, the data and the value that the settings name and the instructions
that they choose. A document that was read makes a session with every code, and so it does under
options, if and only if each that is given is usable. -/
theorem validation_decides_construction :
    (∀ (s : Settings) (flaw : Settings.Invalid),
      s.validate = .error flaw ↔ s.FirstWrong flaw) ∧
    (∀ (code : Bytes) (s : Settings),
      ((∃ e, Session.ofSettings code s = .error e) ↔ ∃ flaw, s.validate = .error flaw) ∧
      (∀ e, Session.ofSettings code s = .error e →
        ∃ flaw, s.validate = .error flaw ∧ e = .settings flaw ∧
          e.message = "Config error: " ++ flaw.message) ∧
      (∀ cause, Session.ofSettings code s ≠ .error (.hex cause)) ∧
      ∀ session, Session.ofSettings code s = .ok session → session.Opens code s) ∧
    ∀ (document : String) (s : Settings), Settings.read document = .ok s → ∀ code : Bytes,
      (∃ session, Session.ofSettings code s = .ok session) ∧
      ∀ options : Options,
        (∃ session, Session.ofSettings code (options.override s) = .ok session) ↔
          options.Usable := by
  refine ⟨fun s flaw => Settings.validate_eq_error_iff, fun code s => ⟨⟨?_, ?_⟩, ?_, ?_, ?_⟩, ?_⟩
  · rintro ⟨e, he⟩
    obtain ⟨flaw, hflaw, -⟩ := Session.ofSettings_eq_error_iff.1 he
    exact ⟨flaw, hflaw⟩
  · rintro ⟨flaw, hflaw⟩
    exact ⟨_, Session.ofSettings_eq_error_iff.2 ⟨flaw, hflaw, rfl⟩⟩
  · intro e he
    obtain ⟨flaw, hflaw, rfl⟩ := Session.ofSettings_eq_error_iff.1 he
    exact ⟨flaw, hflaw, rfl, rfl⟩
  · intro cause he
    obtain ⟨flaw, -, hcause⟩ := Session.ofSettings_eq_error_iff.1 he
    cases hcause
  · intro session hsession
    exact (Session.opens_of_ofSettings hsession).2
  · intro document s hread code
    have husable : s.Usable := Settings.usable_of_read hread
    refine ⟨Session.exists_ofSettings_iff.2 husable, fun options => ?_⟩
    rw [Session.exists_ofSettings_iff]
    exact Options.usable_override_iff husable

/-- Little gas, subroutines, and call data with blanks and a marker. -/
def frugalDocument : String :=
  "[debugger]\ngas_limit = 100\nsubroutines = true\ncall_data = \" 0xAb \"\n"

def frugalSettings : Settings :=
  { Settings.default with gasLimit := 100, subroutines := true, callData := " 0xAb " }

/-- Even less gas, and no call data. -/
def frugalOptions : Options where
  code := .text ""
  callData := some "0X"
  callValue := none
  gasLimit := some 7
  config := none
  subroutines := false
  height := none

/-- Validation decides construction where the options replace what the document says. -/
theorem validation_decides_construction_of_document :
    Settings.read frugalDocument = .ok frugalSettings ∧
    (∃ session,
      Session.ofSettings ByteArray.empty (frugalOptions.override frugalSettings) = .ok session ∧
      session.Opens ByteArray.empty (frugalOptions.override frugalSettings)) ∧
    ¬ ∃ session, Session.ofSettings ByteArray.empty
      ({ frugalOptions with height := some 0 }.override frugalSettings) = .ok session := by
  obtain ⟨-, hsessions, hdocuments⟩ := validation_decides_construction
  have hdocument : Settings.ofDocument? frugalDocument = some frugalSettings := by decide +kernel
  have hread : Settings.read frugalDocument = .ok frugalSettings := by
    unfold Settings.read
    rw [hdocument]
    rfl
  have husable : frugalOptions.Usable := by
    refine ⟨?_, ?_, ?_, ?_⟩
    · simp [frugalOptions]
    · simp [frugalOptions]
    · simp only [frugalOptions, Option.mem_some_iff, forall_eq']
      exact ⟨ByteArray.empty, by rfl⟩
    · simp [frugalOptions]
  obtain ⟨-, hover⟩ := hdocuments frugalDocument frugalSettings hread ByteArray.empty
  obtain ⟨session, hsession⟩ := (hover frugalOptions).2 husable
  obtain ⟨-, -, -, hopens⟩ :=
    hsessions ByteArray.empty (frugalOptions.override frugalSettings)
  refine ⟨hread, ⟨session, hsession, hopens session hsession⟩, ?_⟩
  intro hmade
  have hheight := ((hover _).1 hmade).height
  exact hheight 0 rfl rfl

end Retrace
