import CListing.Formatter.File
import CListing.Listing.Basic

/-!
# Listings of sources

The whole way from a source to its listing. There is a listing unless the reader never comes to the
end of the source.
-/

namespace CListing

/-- The choices of a run. -/
structure Settings where
  layout : Layout := {}
  /-- Each token is noted in the log. -/
  traced : Bool := false
deriving DecidableEq, Repr, Inhabited

/-- A source with its listing, and what there is to say about it. -/
structure Formatted where
  listing : Listing
  notes : List Note
  functions : Nat
  missing : Nat
deriving DecidableEq, Repr

namespace Formatted

/-- The note about the indentation at the end. -/
def balanceNote (listing : Listing) : List Note :=
  if listing.indentation = 0 then [] else [.unbalanced listing.indentation]

/-- The listing that a feed yields, after the given notes. -/
def ofFeed (settings : Settings) (name : List Char) (feed : Feed) (notes : List Note) :
    Formatted :=
  let formatter := (Formatter.ofTokens feed settings.traced notes).file
  let listing := (Listing.blank settings.layout name).run formatter.script.toList
  { listing := listing
    notes := formatter.notes.toList ++ balanceNote listing
    functions := formatter.functions
    missing := formatter.missing }

/-- The listing of a source, with the name in its headings. -/
def ofSource? (settings : Settings) (name : List Char) (source : Source) : Option Formatted :=
  let (reader, notes) := Reader.ofSource source
  (Feed.ofReader? reader).map fun feed => ofFeed settings name feed notes

theorem ofSource?_eq (settings : Settings) (name : List Char) (source : Source) :
    ofSource? settings name source =
      (Feed.ofReader? (Reader.ofSource source).1).map fun feed =>
        ofFeed settings name feed (Reader.ofSource source).2 :=
  rfl

end Formatted

/-- Why there is no listing. -/
inductive Refusal
  /-- A measure of the layout is at fault. -/
  | layout (fault : Layout.Fault)
  /-- The reader never comes to the end of the source. -/
  | endless
deriving DecidableEq, Repr

/-- The listing of a source. The layout is checked before the source is read. -/
def reformat (settings : Settings) (name : List Char) (source : Source) :
    Except Refusal Formatted :=
  match settings.layout.fault? with
  | some fault => .error (.layout fault)
  | none =>
    match Formatted.ofSource? settings name source with
    | some formatted => .ok formatted
    | none => .error .endless

/-- Sources are refused for their layout exactly if that is not acceptable. -/
theorem reformat_eq_error_layout_iff (settings : Settings) (name : List Char) (source : Source)
    (fault : Layout.Fault) :
    reformat settings name source = .error (.layout fault) ↔
      settings.layout.fault? = some fault := by
  unfold reformat
  cases found : settings.layout.fault? with
  | some other => simp
  | none => cases Formatted.ofSource? settings name source <;> simp

section Ok

variable {settings : Settings} {name : List Char} {source : Source} {formatted : Formatted}

theorem reformat_eq_ok_iff_ofSource? :
    reformat settings name source = .ok formatted ↔
      settings.layout.Acceptable ∧ Formatted.ofSource? settings name source = some formatted := by
  rw [← Layout.fault?_eq_none_iff]
  unfold reformat
  cases settings.layout.fault? with
  | some fault => simp
  | none => cases Formatted.ofSource? settings name source <;> simp

/-- What is formatted is what the feed of the source yields, under an acceptable layout. -/
theorem reformat_eq_ok_iff :
    reformat settings name source = .ok formatted ↔
      settings.layout.Acceptable ∧ ∃ feed,
        Feed.ofReader? (Reader.ofSource source).1 = some feed ∧
          Formatted.ofFeed settings name feed (Reader.ofSource source).2 = formatted := by
  rw [reformat_eq_ok_iff_ofSource?, Formatted.ofSource?_eq, Option.map_eq_some_iff]

end Ok

end CListing
