import CListing.Proofs.CommandLine.Files

/-!
# Failed sessions

A session that does not come to a listing leaves the files as they were, but for the log: that is
opened first, and it is empty then. What is wrong with the arguments, the name or the measures is
found before any file is opened, so that in these cases the log is left alone as well.
-/

namespace CListing.CommandLine

/-- The name that is typed, unless there is none or the user breaks off. -/
def answer? (input? : Option (List Char)) : Option (List Char) :=
  match Reply.ofInput input? with
  | .line text => given? (some text)
  | _ => none

/-- The name of the source, given or typed. -/
def sourceName? (options : Options) (input? : Option (List Char)) : Option (List Char) :=
  (given? options.name?).or (answer? input?)

/-- The question for the name, if it has to be asked. -/
def Options.question (options : Options) : String :=
  if (given? options.name?).isNone then promptText else ""

variable {arguments : List (List Char)} {options : Options} {input? : Option (List Char)}
variable {files : FileTree} {name : List Char} {outcome : Outcome}

/-- A session with a name asks for it at most, and then goes on with it. -/
theorem runOptions_of_named (named : sourceName? options input? = some name) :
    runOptions options input? files =
      (runNamed options name files).map (Outcome.afterStdout options.question) := by
  rw [sourceName?] at named
  cases given : given? options.name? with
  | some first =>
    rw [given, Option.some_or] at named
    obtain rfl := Option.some.inj named
    have unasked : Outcome.afterStdout options.question = id := by
      funext outcome
      simp [Outcome.afterStdout, Options.question, given]
    rw [unasked, Option.map_id_fun, runOptions, given]
    rfl
  | none =>
    rw [given, Option.none_or, answer?] at named
    have asked : options.question = promptText := by simp [Options.question, given]
    rw [runOptions, given, asked]
    cases reply : Reply.ofInput input? with
    | line text =>
      rw [reply] at named
      cases text with
      | nil => contradiction
      | cons c rest =>
        obtain rfl : c :: rest = name := Option.some.inj named
        rfl
    | _ =>
      rw [reply] at named
      contradiction

theorem runOptions_of_unnamed (unnamed : sourceName? options input? = none) (files : FileTree) :
    ∃ outcome, runOptions options input? files = some outcome ∧ outcome.Refuses files := by
  rw [sourceName?, Option.or_eq_none_iff] at unnamed
  obtain ⟨notGiven, unanswered⟩ := unnamed
  rw [runOptions, notGiven]
  rw [answer?] at unanswered
  cases reply : Reply.ofInput input? with
  | interrupted => exact ⟨_, rfl, by simp [Outcome.afterStdout], rfl⟩
  | exhausted => exact ⟨_, rfl, by simp [Outcome.afterStdout], rfl⟩
  | line text =>
    cases text with
    | nil => exact ⟨_, rfl, by simp [Outcome.afterStdout], rfl⟩
    | cons c rest =>
      rw [reply] at unanswered
      contradiction

theorem runNamed_of_refused {refusal : Options.LayoutRefusal}
    (refused : options.layout? = .error refusal) (name : List Char) (files : FileTree) :
    ∃ outcome, runNamed options name files = some outcome ∧ outcome.Refuses files := by
  rw [runNamed, refused]
  cases refusal with
  | fault fault => exact ⟨_, rfl, by simp, rfl⟩
  | noValue => exact ⟨_, rfl, by simp, rfl⟩

/-- The files are what they were, but for the log, which is empty if it is opened. -/
inductive OnlyLog (options : Options) (files : FileTree) : FileTree → Prop
  | untouched : OnlyLog options files files
  | emptied {path : List Char} {location : Location} (named : given? options.log? = some path)
      (located : files.locate true path = .ok location) :
      OnlyLog options files (files.put location (.file []))

namespace OnlyLog

variable {after : FileTree} {location? : Option Location}

theorem ofEmptied (emptied : Emptied files (given? options.log?) location? after) :
    OnlyLog options files after := by
  generalize named : given? options.log? = path? at emptied
  cases emptied with
  | nothing => exact OnlyLog.untouched
  | file located _ => exact OnlyLog.emptied named located

theorem ofRefuses (refuses : outcome.Refuses files) : OnlyLog options files outcome.files := by
  rw [refuses.untouched]
  exact OnlyLog.untouched

/-- Only at the log something else may stand. -/
theorem exists_of_ne (onlyLog : OnlyLog options files after) {location : Location}
    (changed : after.node? location ≠ files.node? location) :
    ∃ path, given? options.log? = some path ∧ files.locate true path = .ok location := by
  cases onlyLog with
  | untouched => contradiction
  | @emptied path place named located =>
    by_cases same : location = place
    · rw [same]
      exact ⟨path, named, located⟩
    · exact absurd (FileTree.node?_put_of_ne same) changed

end OnlyLog

/-- A file that cannot be opened ends the session, with no file touched but the log. -/
theorem onlyLog_of_openFiles (failure : openFiles options name files = .error outcome) :
    outcome.ending ≠ .exit 0 ∧ OnlyLog options files outcome.files := by
  rw [openFiles] at failure
  split at failure
  · rename_i fault opensLog
    obtain rfl := Except.error.inj failure
    have refuses := refuses_of_openTarget opensLog
    exact ⟨refuses.failed, OnlyLog.ofRefuses refuses⟩
  · rename_i log? withLog opensLog
    have onlyLog := OnlyLog.ofEmptied (emptied_of_openTarget opensLog)
    split at failure
    · rename_i fault opensSource
      obtain rfl := Except.error.inj failure
      obtain ⟨failed, untouched⟩ := refuses_ofOpenFault withLog (sourcePath name) fault
      exact ⟨failed, by rwa [untouched]⟩
    · split at failure
      · rename_i fault opensListing
        obtain rfl := Except.error.inj failure
        rw [openListing_eq] at opensListing
        obtain ⟨failed, untouched⟩ := refuses_of_openTarget opensListing
        exact ⟨failed, by rwa [untouched]⟩
      · contradiction

/-- Once the files are open nothing fails. -/
theorem onlyLog_of_listSource {layout : Layout}
    (ended : listSource options layout name files = some outcome)
    (failed : outcome.ending ≠ .exit 0) : OnlyLog options files outcome.files := by
  rw [listSource] at ended
  split at ended
  · rename_i failure
    obtain rfl := Option.some.inj ended
    exact (onlyLog_of_openFiles failure).2
  · obtain ⟨formatted, -, rfl⟩ := Option.map_eq_some_iff.mp ended
    exact absurd rfl failed

theorem onlyLog_of_runNamed (ended : runNamed options name files = some outcome)
    (failed : outcome.ending ≠ .exit 0) : OnlyLog options files outcome.files := by
  cases accepted : options.layout? with
  | error refusal =>
    obtain ⟨other, ends, refused⟩ := runNamed_of_refused accepted name files
    obtain rfl := Option.some.inj (ended.symm.trans ends)
    exact OnlyLog.ofRefuses refused
  | ok layout =>
    rw [runNamed, accepted] at ended
    exact onlyLog_of_listSource ended failed

theorem onlyLog_of_runOptions (ended : runOptions options input? files = some outcome)
    (failed : outcome.ending ≠ .exit 0) : OnlyLog options files outcome.files := by
  cases named : sourceName? options input? with
  | none =>
    obtain ⟨other, ends, refused⟩ := runOptions_of_unnamed named files
    obtain rfl := Option.some.inj (ended.symm.trans ends)
    exact OnlyLog.ofRefuses refused
  | some name =>
    rw [runOptions_of_named named, Option.map_eq_some_iff] at ended
    obtain ⟨before, ended, rfl⟩ := ended
    have onlyLog : OnlyLog options files before.files := onlyLog_of_runNamed ended failed
    exact onlyLog

/-- The session ends before a file is opened: an argument is wrong, there is no name, or a measure
is not accepted. -/
inductive EndsEarly (arguments : List (List Char)) (input? : Option (List Char)) : Prop
  | arguments {fault : ArgumentFault}
      (wrong : Options.ofArguments arguments = .error (.fault fault))
  | name {options : Options} (parsed : Options.ofArguments arguments = .ok options)
      (unnamed : sourceName? options input? = none)
  | layout {options : Options} {refusal : Options.LayoutRefusal}
      (parsed : Options.ofArguments arguments = .ok options)
      (refused : options.layout? = .error refusal)

theorem refuses_of_endsEarly (early : EndsEarly arguments input?) (files : FileTree) :
    ∃ outcome, run arguments input? files = some outcome ∧ outcome.Refuses files := by
  cases early with
  | arguments wrong =>
    rw [run, wrong]
    exact ⟨_, rfl, by simp, rfl⟩
  | name parsed unnamed =>
    rw [run, parsed]
    exact runOptions_of_unnamed unnamed files
  | @layout options refusal parsed refused =>
    rw [run, parsed]
    cases named : sourceName? options input? with
    | none => exact runOptions_of_unnamed named files
    | some name =>
      obtain ⟨outcome, ends, failed, untouched⟩ := runNamed_of_refused refused name files
      dsimp only
      rw [runOptions_of_named named, ends]
      exact ⟨_, rfl, failed, untouched⟩

/-- The arguments name the file at the location as the log. -/
def NamesLog (arguments : List (List Char)) (files : FileTree) (location : Location) : Prop :=
  ∃ options path, Options.ofArguments arguments = .ok options ∧
    given? options.log? = some path ∧ files.locate true path = .ok location

end CListing.CommandLine
