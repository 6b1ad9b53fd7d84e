import CListing.Proofs.CommandLine.Failure
import CListing.Proofs.Reformat.Nothing
import CListing.Proofs.Source.Encoding

/-!
# What a session delivers

A session that comes to a listing delivers the one of its source, and keeps the source, as long as
no two of its files are one. The log and the listing are emptied before the source is read. So a
source that is one of them is read as empty and is lost, and a log that is also the listing is
written over it. That does no harm only where there was nothing to lose.
-/

namespace CListing.CommandLine

variable {options : Options} {layout : Layout} {name : List Char} {input? : Option (List Char)}
variable {files after : FileTree} {outcome : Outcome} {formatted : Formatted}

/-! ## Measures and log -/

theorem acceptable_of_layout? (accepted : options.layout? = .ok layout) : layout.Acceptable := by
  rw [← Layout.fault?_eq_none_iff]
  have last {before : Layout} {value? : Option Int} {put : Layout → Int → Layout}
      (success : Options.withMeasure before value? put = .ok layout) : layout.fault? = none := by
    unfold Options.withMeasure at success
    split at success
    · contradiction
    · split at success
      · contradiction
      · rename_i faultless
        rwa [← Except.ok.inj success]
  unfold Options.layout? at accepted
  simp only [bind, Except.bind] at accepted
  split at accepted
  · contradiction
  split at accepted
  · contradiction
  split at accepted
  · contradiction
  exact last accepted

/-- The log is empty, or it begins with the word that all its lines begin with. -/
theorem logText_cases (options : Options) (source : List Char) (formatted : Formatted) :
    (formatted.notes = [] ∧ options.wantsStatistics = false) ∨
      ∃ rest, (logText options source formatted).toList = 'F' :: rest := by
  have line (message : String) : ∃ rest, (logLine source message).toList = 'F' :: rest :=
    ⟨_, by simp only [logLine, String.toList_append]; rfl⟩
  have append {text : String} (begins : ∃ rest, text.toList = 'F' :: rest) (more : String) :
      ∃ rest, (text ++ more).toList = 'F' :: rest := by
    obtain ⟨rest, begins⟩ := begins
    exact ⟨rest ++ more.toList, by rw [String.toList_append, begins, List.cons_append]⟩
  cases notes : formatted.notes with
  | cons note notes =>
    refine Or.inr ?_
    rw [logText, notes, List.map_cons, String.join_cons]
    exact append (append (line note.message) _) _
  | nil =>
    cases wanted : options.wantsStatistics with
    | false => exact Or.inl ⟨rfl, rfl⟩
    | true =>
      refine Or.inr ?_
      simp only [logText, notes, wanted, if_true, List.map_nil, String.join_nil,
        String.empty_append]
      exact append (append (line _) _) _

theorem logText_eq_empty_iff {source : List Char} :
    logText options source formatted = "" ↔
      formatted.notes = [] ∧ options.wantsStatistics = false := by
  constructor
  · intro empty
    rcases logText_cases options source formatted with quiet | ⟨rest, begins⟩
    · exact quiet
    · rw [empty] at begins
      contradiction
  · rintro ⟨notes, unwanted⟩
    simp [logText, notes, unwanted]

theorem verbose_eq_nil_iff :
    options.verbose = [] ↔ options.traced = false ∧ options.wantsStatistics = false := by
  rw [Options.traced, Options.wantsStatistics]
  cases options.verbose with
  | nil => simp
  | cons verbosity rest => cases verbosity <;> simp

/-! ## The files of a session -/

/-- Where the files of a session are. -/
structure Sites where
  source : Location
  /-- The log, unless it goes to the standard error output. -/
  log? : Option Location
  /-- The listing, unless it goes to the standard output. -/
  listing? : Option Location
deriving DecidableEq, Repr

/-- A path, if there is one, leads to a location. -/
inductive Leads (files : FileTree) : Option (List Char) → Option Location → Prop
  | nowhere : Leads files none none
  | file {path : List Char} {location : Location}
      (located : files.locate true path = .ok location) :
      Leads files (some path) (some location)

/-- The sites are those that the options name in the given files. -/
structure Sites.Found (sites : Sites) (options : Options) (name : List Char) (files : FileTree) :
    Prop where
  source : files.locate false (sourcePath name) = .ok sites.source
  log : Leads files (given? options.log?) sites.log?
  listing : Leads files (options.destination name).path? sites.listing?

/-- The log and the listing are emptied, and nothing else is changed. The source is there, if only
because the log has just been created in its place. -/
structure Sites.Opened (sites : Sites) (files after : FileTree) : Prop where
  emptied {location : Location}
    (written : sites.log? = some location ∨ sites.listing? = some location) :
    after.node? location = some (.file [])
  kept {location : Location} (notLog : sites.log? ≠ some location)
    (notListing : sites.listing? ≠ some location) : after.node? location = files.node? location
  present : sites.log? = some sites.source ∨
    ∃ content, files.node? sites.source = some (.file content)

namespace Emptied

variable {path? : Option (List Char)} {location? : Option Location} {location : Location}

theorem leads (emptied : Emptied files path? location? after) : Leads files path? location? := by
  cases emptied with
  | nothing => exact Leads.nowhere
  | file located _ => exact Leads.file located

theorem node?_self (emptied : Emptied files path? (some location) after) :
    after.node? location = some (.file []) := by
  cases emptied with
  | file _ noDirectory => exact FileTree.node?_put_self (FileTree.isGiven_eq_false noDirectory)

theorem node?_of_ne (emptied : Emptied files path? location? after)
    (different : location? ≠ some location) : after.node? location = files.node? location := by
  cases emptied with
  | nothing => rfl
  | file => exact FileTree.node?_put_of_ne fun same => different (congrArg some same.symm)

/-- Paths lead where they led before. -/
theorem locate_iff (emptied : Emptied files path? location? after) {creating : Bool}
    {path : List Char} :
    after.locate creating path = .ok location ↔ files.locate creating path = .ok location := by
  cases emptied with
  | nothing => rfl
  | file _ noDirectory => exact FileTree.locate_put_iff noDirectory

end Emptied

/-- Once the files are open they are at the sites that the options name. -/
theorem found_of_openFiles {opened : OpenFiles}
    (success : openFiles options name files = .ok opened) :
    let sites : Sites :=
      { source := opened.source, log? := opened.log?, listing? := opened.listing? }
    sites.Found options name files ∧ sites.Opened files opened.files := by
  intro sites
  rw [openFiles] at success
  split at success
  · contradiction
  · rename_i log? withLog opensLog
    split at success
    · contradiction
    · rename_i source opensSource
      split at success
      · contradiction
      · rename_i listing? after opensListing
        obtain rfl := Except.ok.inj success
        rw [openListing_eq] at opensListing
        have first := emptied_of_openTarget opensLog
        have second := emptied_of_openTarget opensListing
        obtain ⟨located, content, present⟩ := FileTree.openForReading_eq_ok_iff.mp opensSource
        refine ⟨⟨first.locate_iff.mp located, first.leads, ?_⟩, ⟨?_, ?_, ?_⟩⟩
        · generalize (options.destination name).path? = path? at second
          cases second with
          | nothing => exact Leads.nowhere
          | file located _ => exact Leads.file (first.locate_iff.mp located)
        · intro location written
          by_cases listing : listing? = some location
          · rw [listing] at second
            exact second.node?_self
          · rw [second.node?_of_ne listing]
            obtain rfl : log? = some location := written.resolve_right listing
            exact first.node?_self
        · intro location notLog notListing
          rw [second.node?_of_ne notListing, first.node?_of_ne notLog]
        · by_cases log : log? = some source
          · exact Or.inl log
          · rw [first.node?_of_ne log] at present
            exact Or.inr ⟨content, present⟩

/-! ## Writing -/

section Writing

variable {location : Location} {location? : Option Location} {text : List Char}

theorem node?_writeTo_of_ne (different : location? ≠ some location) :
    (writeTo location? text files).node? location = files.node? location := by
  cases location? with
  | none => rfl
  | some place => exact FileTree.node?_put_of_ne fun same => different (congrArg some same.symm)

theorem node?_writeTo_self {bytes : List UInt8}
    (present : files.node? location = some (.file bytes)) :
    (writeTo (some location) text files).node? location =
      some (.file (Utf8.encode text ++ bytes.drop (Utf8.encode text).length)) := by
  have own : FileTree.isGiven location = false :=
    FileTree.isGiven_eq_false (by rw [present]; simp)
  rw [writeTo, FileTree.overwrite, FileTree.node?_put_self own, FileTree.bytes, present]

/-- What is written to an empty file is all that it holds. -/
theorem node?_writeTo_empty (empty : files.node? location = some (.file [])) :
    (writeTo (some location) text files).node? location = some (.file (Utf8.encode text)) := by
  rw [node?_writeTo_self empty, List.drop_nil, List.append_nil]

end Writing

/-! ## Delivery -/

/-- The choices for the listing of a source under the given layout. -/
def Options.settings (options : Options) (layout : Layout) : Settings where
  layout := layout
  traced := options.traced

/-- The text has come where the listing goes. -/
def Arrived (options : Options) (outcome : Outcome) (text : List Char) : Option Location → Prop
  | none => outcome.stdout = options.question ++ String.ofList text
  | some location => outcome.files.node? location = some (.file (Utf8.encode text))

/-- The listing of what the source held before the session has come where it goes. The source is
what it was, unless the listing was to replace it. -/
inductive Delivers (options : Options) (layout : Layout) (name : List Char) (files : FileTree)
    (sites : Sites) (outcome : Outcome) : Prop
  | intro {content : List UInt8} {formatted : Formatted}
      (present : files.node? sites.source = some (.file content))
      (ok : reformat (options.settings layout) (FilePath.lastName name) (Source.ofBytes content) =
        .ok formatted)
      (arrived : Arrived options outcome formatted.listing.render sites.listing?)
      (kept : sites.listing? = some sites.source ∨
        outcome.files.node? sites.source = some (.file content))

/-- No file is in the way of another, or there is nothing to lose. -/
inductive Undisturbed (options : Options) (layout : Layout) (name : List Char) (files : FileTree)
    (sites : Sites) : Prop
  | apart (notLog : sites.log? ≠ some sites.source)
      (notListing : sites.listing? ≠ some sites.source)
      (distinct : ∀ location, sites.log? = some location → sites.listing? ≠ some location)
  /-- The log may be the listing as well if nothing is logged. -/
  | silent {content : List UInt8} {formatted : Formatted}
      (notLog : sites.log? ≠ some sites.source) (notListing : sites.listing? ≠ some sites.source)
      (present : files.node? sites.source = some (.file content))
      (ok : reformat (options.settings layout) (FilePath.lastName name) (Source.ofBytes content) =
        .ok formatted)
      (quiet : formatted.notes = [] ∧ options.wantsStatistics = false)
  /-- A source with an empty listing may be the listing. It may be the log as well if nothing is
  logged; and if it is the log alone, it must have been empty before. -/
  | bare {content : List UInt8}
      (written : sites.log? = some sites.source ∨ sites.listing? = some sites.source)
      (present : files.node? sites.source = some (.file content))
      (nothing : (Source.ofBytes content).items? = some [])
      (quiet : sites.log? = some sites.source →
        options.verbose = [] ∧ (sites.listing? = some sites.source ∨ content = []))

/-- A session that came to the given listing, with the files as they were once they were open. -/
structure Listed (options : Options) (layout : Layout) (name : List Char) (files opened : FileTree)
    (sites : Sites) (ran : Formatted) (outcome : Outcome) : Prop where
  acceptable : layout.Acceptable
  opens : sites.Opened files opened
  ok : reformat (options.settings layout) (FilePath.lastName name)
    (Source.ofBytes (opened.bytes sites.source)) = .ok ran
  stdout : outcome.stdout = options.question ++
    if sites.listing?.isNone then String.ofList ran.listing.render else ""
  final : outcome.files = writeTo sites.log? (logText options (sourcePath name) ran).toList
    (writeTo sites.listing? ran.listing.render opened)

/-- A session with a good end has come to a listing. -/
theorem exists_listed (ended : runOptions options input? files = some outcome)
    (succeeded : outcome.ending = .exit 0) :
    ∃ name layout sites, sourceName? options input? = some name ∧ options.layout? = .ok layout ∧
      sites.Found options name files ∧
        ∃ opened ran, Listed options layout name files opened sites ran outcome := by
  cases named : sourceName? options input? with
  | none =>
    obtain ⟨other, ends, refused⟩ := runOptions_of_unnamed named files
    obtain rfl := Option.some.inj (ended.symm.trans ends)
    exact absurd succeeded refused.failed
  | some name =>
    rw [runOptions_of_named named, Option.map_eq_some_iff] at ended
    obtain ⟨before, ended, rfl⟩ := ended
    cases accepted : options.layout? with
    | error refusal =>
      obtain ⟨other, ends, refused⟩ := runNamed_of_refused accepted name files
      obtain rfl := Option.some.inj (ended.symm.trans ends)
      exact absurd succeeded refused.failed
    | ok layout =>
      rw [runNamed, accepted] at ended
      dsimp only at ended
      rw [listSource] at ended
      cases opens : openFiles options name files with
      | error other =>
        rw [opens] at ended
        obtain rfl := Option.some.inj ended
        exact absurd succeeded (onlyLog_of_openFiles opens).1
      | ok opened =>
        rw [opens] at ended
        obtain ⟨ran, made, rfl⟩ := Option.map_eq_some_iff.mp ended
        obtain ⟨found, sitesOpened⟩ := found_of_openFiles opens
        have acceptable := acceptable_of_layout? accepted
        refine ⟨name, layout, _, rfl, rfl, found, opened.files, ran, ?_⟩
        refine ⟨acceptable, sitesOpened, ?_, rfl, rfl⟩
        exact reformat_eq_ok_iff_ofSource?.mpr ⟨acceptable, made⟩

namespace Listed

variable {opened : FileTree} {sites : Sites} {ran : Formatted}
variable (listed : Listed options layout name files opened sites ran outcome)
include listed

theorem node?_of_kept {location : Location} (notLog : sites.log? ≠ some location)
    (notListing : sites.listing? ≠ some location) :
    outcome.files.node? location = files.node? location := by
  rw [listed.final, node?_writeTo_of_ne notLog, node?_writeTo_of_ne notListing,
    listed.opens.kept notLog notListing]

theorem node?_log {location : Location} (log : sites.log? = some location)
    (notListing : sites.listing? ≠ some location) :
    outcome.files.node? location =
      some (.file (Utf8.encode (logText options (sourcePath name) ran).toList)) := by
  have empty : (writeTo sites.listing? ran.listing.render opened).node? location =
      some (.file []) := by
    rw [node?_writeTo_of_ne notListing]
    exact listed.opens.emptied (Or.inl log)
  rw [listed.final, log, node?_writeTo_empty empty]

/-- A log that is also the listing is written over it. -/
theorem node?_overwritten {location : Location} (log : sites.log? = some location)
    (listing : sites.listing? = some location) :
    outcome.files.node? location =
      let logBytes := Utf8.encode (logText options (sourcePath name) ran).toList
      some (.file (logBytes ++ (Utf8.encode ran.listing.render).drop logBytes.length)) := by
  have written : (writeTo sites.listing? ran.listing.render opened).node? location =
      some (.file (Utf8.encode ran.listing.render)) := by
    rw [listing, node?_writeTo_empty (listed.opens.emptied (Or.inr listing))]
  rw [listed.final, log, node?_writeTo_self written]

/-- The listing is where it goes if no log is written over it. -/
theorem node?_listing {location : Location} (listing : sites.listing? = some location)
    (silent : sites.log? = some location → logText options (sourcePath name) ran = "") :
    outcome.files.node? location = some (.file (Utf8.encode ran.listing.render)) := by
  by_cases log : sites.log? = some location
  · rw [listed.node?_overwritten log listing, silent log]
    rfl
  · rw [listed.final, node?_writeTo_of_ne log, listing,
      node?_writeTo_empty (listed.opens.emptied (Or.inr listing))]

/-- The listing of a session has arrived, unless a log is written over it. No other listing has. -/
theorem arrived_iff {other : Formatted} {settings : Settings} {title : List Char} {source : Source}
    (ok : reformat settings title source = .ok other) :
    Arrived options outcome other.listing.render sites.listing? ↔
      other.listing.render = ran.listing.render ∧
        ∀ location, sites.log? = some location → sites.listing? = some location →
          logText options (sourcePath name) ran = "" := by
  cases listing : sites.listing? with
  | none =>
    have stdout := listed.stdout
    rw [listing, Option.isNone_none, if_pos rfl] at stdout
    rw [Arrived, stdout, String.append_right_inj, String.ofList_inj, eq_comm]
    simp
  | some place =>
    rw [Arrived]
    constructor
    · intro arrived
      have silent (log : sites.log? = some place) :
          logText options (sourcePath name) ran = "" := by
        rcases logText_cases options (sourcePath name) ran with quiet | ⟨rest, begins⟩
        · exact logText_eq_empty_iff.mpr quiet
        · rw [listed.node?_overwritten log listing, begins] at arrived
          have bytes := Node.file.inj (Option.some.inj arrived)
          have logByte : Utf8.encode ('F' :: rest) = 70 :: Utf8.encode rest := rfl
          rw [logByte, List.cons_append] at bytes
          rcases Formatted.render_cases ok with empty | ⟨more, form⟩
          · rw [empty] at bytes
            contradiction
          · have formByte : Utf8.encode ('\x0c' :: more) = 12 :: Utf8.encode more := rfl
            rw [form, formByte] at bytes
            exact absurd (List.cons.inj bytes).1 (by decide)
      rw [listed.node?_listing listing silent] at arrived
      have same := Utf8.encode_injective (Node.file.inj (Option.some.inj arrived))
      refine ⟨same.symm, fun location log found => ?_⟩
      obtain rfl := Option.some.inj found
      exact silent log
    · rintro ⟨same, silent⟩
      rw [same]
      exact listed.node?_listing listing fun log => silent place log rfl

/-- A source that is neither the log nor the listing is read as it was. -/
theorem ok_of_apart (notLog : sites.log? ≠ some sites.source)
    (notListing : sites.listing? ≠ some sites.source) :
    ∃ content, files.node? sites.source = some (.file content) ∧
      reformat (options.settings layout) (FilePath.lastName name) (Source.ofBytes content) =
        .ok ran := by
  obtain ⟨content, present⟩ := listed.opens.present.resolve_left notLog
  have read : opened.bytes sites.source = content := by
    rw [FileTree.bytes, listed.opens.kept notLog notListing, present]
  have ok := listed.ok
  rw [read] at ok
  exact ⟨content, present, ok⟩

theorem delivers_iff_of_apart (notLog : sites.log? ≠ some sites.source)
    (notListing : sites.listing? ≠ some sites.source) :
    Delivers options layout name files sites outcome ↔
      Undisturbed options layout name files sites := by
  obtain ⟨held, found, read⟩ := listed.ok_of_apart notLog notListing
  have same {content : List UInt8} {formatted : Formatted}
      (present : files.node? sites.source = some (.file content))
      (ok : reformat (options.settings layout) (FilePath.lastName name) (Source.ofBytes content) =
        .ok formatted) : formatted = ran := by
    obtain rfl := Node.file.inj (Option.some.inj (found.symm.trans present))
    exact Except.ok.inj (ok.symm.trans read)
  have delivers (silent : ∀ location, sites.log? = some location →
      sites.listing? = some location → logText options (sourcePath name) ran = "") :
      Delivers options layout name files sites outcome := by
    refine Delivers.intro found read ((listed.arrived_iff read).mpr ⟨rfl, silent⟩) (Or.inr ?_)
    rw [listed.node?_of_kept notLog notListing, found]
  constructor
  · rintro ⟨present, ok, arrived, -⟩
    have silent := ((listed.arrived_iff ok).mp arrived).2
    obtain rfl := same present ok
    by_cases one : ∃ location, sites.log? = some location ∧ sites.listing? = some location
    · obtain ⟨location, log, listing⟩ := one
      exact Undisturbed.silent notLog notListing present ok
        (logText_eq_empty_iff.mp (silent location log listing))
    · exact Undisturbed.apart notLog notListing fun location log listing =>
        one ⟨location, log, listing⟩
  · intro undisturbed
    cases undisturbed with
    | apart _ _ distinct =>
      exact delivers fun location log listing => absurd listing (distinct location log)
    | silent _ _ present ok quiet =>
      obtain rfl := same present ok
      exact delivers fun _ _ _ => logText_eq_empty_iff.mpr quiet
    | bare written => exact absurd written (not_or.mpr ⟨notLog, notListing⟩)

/-- A source that is the log or the listing is read as empty. -/
theorem empty_of_written
    (written : sites.log? = some sites.source ∨ sites.listing? = some sites.source) :
    ran.listing.render = [] ∧
      (logText options (sourcePath name) ran = "" ↔ options.verbose = []) := by
  have read : Source.ofBytes (opened.bytes sites.source) = { lines := [] } := by
    rw [FileTree.bytes, listed.opens.emptied written]
    rfl
  have ok := listed.ok
  obtain ⟨nothing, made, empty, notes⟩ :=
    Formatted.exists_reformat_nothing (options.settings layout) listed.acceptable
      (FilePath.lastName name)
  rw [read, made] at ok
  obtain rfl := Except.ok.inj ok
  refine ⟨empty, ?_⟩
  rw [logText_eq_empty_iff, verbose_eq_nil_iff, notes]
  cases traced : options.traced <;> simp [Options.settings, traced]

theorem delivers_iff_of_written
    (written : sites.log? = some sites.source ∨ sites.listing? = some sites.source) :
    Delivers options layout name files sites outcome ↔
      Undisturbed options layout name files sites := by
  obtain ⟨empty, silent_iff⟩ := listed.empty_of_written written
  constructor
  · rintro @⟨content, formatted, present, ok, arrived, kept⟩
    obtain ⟨nothing, silent⟩ := (listed.arrived_iff ok).mp arrived
    rw [empty, Formatted.render_eq_nil_iff ok] at nothing
    refine Undisturbed.bare written present nothing fun log => ?_
    by_cases listing : sites.listing? = some sites.source
    · exact ⟨silent_iff.mp (silent _ log listing), Or.inl listing⟩
    · have kept := kept.resolve_left listing
      rw [listed.node?_log log listing] at kept
      obtain rfl := Node.file.inj (Option.some.inj kept)
      rcases logText_cases options (sourcePath name) ran with quiet | ⟨rest, begins⟩
      · have none_logged : logText options (sourcePath name) ran = "" :=
          logText_eq_empty_iff.mpr quiet
        rw [none_logged]
        exact ⟨silent_iff.mp none_logged, Or.inr rfl⟩
      · rw [begins, Source.ofBytes_encode] at nothing
        exact absurd nothing
          (Source.items?_ofText_ne_nil (by decide) (by decide) (by decide) rest)
  · intro undisturbed
    cases undisturbed with
    | apart notLog notListing => exact absurd written (not_or.mpr ⟨notLog, notListing⟩)
    | silent notLog notListing => exact absurd written (not_or.mpr ⟨notLog, notListing⟩)
    | @bare content _ present nothing quiet =>
      obtain ⟨formatted, ok⟩ :=
        Formatted.exists_reformat_of_items? (options.settings layout) listed.acceptable
          (FilePath.lastName name) nothing
      have same : formatted.listing.render = ran.listing.render := by
        rw [empty, Formatted.render_eq_nil_iff ok, nothing]
      refine Delivers.intro present ok ((listed.arrived_iff ok).mpr ⟨same, ?_⟩) ?_
      · intro location log listing
        have source : sites.log? = some sites.source := by
          rcases written with source | source
          · exact source
          · rw [log, ← listing, source]
        exact silent_iff.mpr (quiet source).1
      · by_cases listing : sites.listing? = some sites.source
        · exact Or.inl listing
        · have log := written.resolve_right listing
          obtain ⟨unlogged, empty_or⟩ := quiet log
          obtain rfl := empty_or.resolve_left listing
          rw [listed.node?_log log listing, silent_iff.mpr unlogged]
          exact Or.inr rfl

theorem delivers_iff :
    Delivers options layout name files sites outcome ↔
      Undisturbed options layout name files sites := by
  by_cases written : sites.log? = some sites.source ∨ sites.listing? = some sites.source
  · exact listed.delivers_iff_of_written written
  · obtain ⟨notLog, notListing⟩ := not_or.mp written
    exact listed.delivers_iff_of_apart notLog notListing

end Listed

end CListing.CommandLine
