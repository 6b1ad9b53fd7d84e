import CListing.Proofs.Listing.Lacking
import CListing.Proofs.Listing.Pages
import CListing.Proofs.Listing.RoundTrip
import CListing.Proofs.Source.Encoding

/-!
# Headings written and headings read

The lines of a listing that are taken for headings when it is read back are those that were written
as headings: their text has the form of a heading whatever the name is, and no other line holds a
form feed. So the listing is read back as it was written, with an empty line for each heading.
-/

namespace CListing

/-- A text that was written in lines comes in these lines. -/
theorem Source.lines_ofText_renderLines {lines : List Line}
    (plain : ∀ line ∈ lines, '\n' ∉ line.text) :
    (ofText (Listing.renderLines lines)).lines = lines.map fun line => line.text ++ ['\n'] := by
  induction lines with
  | nil => rfl
  | cons line lines ih =>
    have later := ih fun other member => plain other (List.mem_cons_of_mem _ member)
    rw [ofText] at later
    rw [ofText, Listing.renderLines, List.flatMap_cons, List.append_assoc, List.singleton_append,
      splitAfter_append (plain line List.mem_cons_self), List.map_cons, ← later]
    rfl

namespace Listing

/-- The lines that were written as headings are headings of pages. -/
def Headed (listing : Listing) : Prop :=
  ∀ line ∈ listing.lines.toList, line.isHeading = true → ∃ number, line = listing.headingLine number

namespace Headed

variable {listing : Listing}

theorem newPage (headed : listing.Headed) : listing.newPage.Headed := by
  intro line member heading
  rw [Listing.newPage, Array.toList_push] at member
  rcases List.mem_append.mp member with before | added
  · exact headed line before heading
  · exact ⟨listing.nextPage, List.mem_singleton.mp added⟩

theorem writeLine (headed : listing.Headed) {origin : Line.Origin} (body : origin.isBody = true)
    (text : List Char) (indented : Bool) : (listing.writeLine origin text indented).Headed := by
  have room : listing.makeRoom.Headed := by
    unfold makeRoom
    split
    · exact headed.newPage
    · exact headed
  intro line member heading
  rw [Listing.writeLine, Array.toList_push] at member
  rcases List.mem_append.mp member with before | added
  · exact room line before heading
  · rw [List.mem_singleton.mp added, Line.isHeading_of_isBody body] at heading
    contradiction

end Headed

theorem keptByPages_headed : KeptByPages Headed where
  pending holds _ := holds
  indentation holds _ := holds
  writeLine holds _ body text indented := Headed.writeLine holds body text indented
  newPage holds := Headed.newPage holds
  endPage holds := holds

section ReadBack

variable {listing : Listing} (headed : listing.Headed) (plainName : '\n' ∉ listing.name)
  (feedless : listing.Lacks '\n') (formless : listing.Lacks '\x0c')
include headed plainName

include feedless in
theorem Headed.not_mem_text : ∀ line ∈ listing.lines.toList, '\n' ∉ line.text := by
  intro line member
  cases heading : line.isHeading with
  | false => exact feedless.lines line member heading
  | true =>
    obtain ⟨number, rfl⟩ := headed line member heading
    exact Heading.not_mem_text plainName _ _

include formless in
/-- Only the headings have the form of one. -/
theorem Headed.isHeadingLine_iff {line : Line} (member : line ∈ listing.lines.toList) :
    Heading.IsHeadingLine (line.text ++ ['\n']) ↔ line.isHeading = true := by
  constructor
  · intro form
    cases heading : line.isHeading with
    | true => rfl
    | false =>
      have first := Heading.head?_of_matches? (Heading.matches?_iff.mpr form)
      have begins : '\x0c' ∈ line.text ++ ['\n'] := List.mem_of_head? first
      simp [formless.lines line member heading] at begins
  · intro heading
    obtain ⟨number, rfl⟩ := headed line member heading
    exact Heading.isHeadingLine_text plainName _ _

include feedless formless in
/-- Headings come back as empty lines and all other lines as they were written. -/
theorem Headed.text_readBack :
    (Source.ofText listing.render).text = listing.lines.toList.flatMap fun line =>
      if line.isHeading then ['\n'] else line.text ++ ['\n'] := by
  rw [Listing.render, Source.text_ofText_renderLines]
  refine List.flatMap_congr fun line member => ?_
  cases heading : line.isHeading with
  | true =>
    obtain ⟨number, rfl⟩ := headed line member heading
    exact Line.readBack_heading plainName _ _ _
  | false =>
    exact Line.readsBack_of_plain (headed.not_mem_text plainName feedless line member)
      (formless.lines line member heading)

end ReadBack

end Listing

/-- A listing read back. The lines taken for headings are known by their form, which each heading
has, whatever its name, its width and its number. If the texts of the script hold neither line feeds
nor form feeds, the file comes in the lines of the listing, of which exactly the headings are taken
for headings, and it is read as these lines with an empty line in the place of each heading. -/
theorem listing_reads_back_without_headings :
    (∀ line, Heading.matches? line = true ↔ Heading.IsHeadingLine line) ∧
    (∀ (name : List Char) (width : Int) (number : Nat), '\n' ∉ name →
      Heading.IsHeadingLine (Heading.text name width number ++ ['\n'])) ∧
    ∀ (layout : Layout) (name : List Char) (script : List Command), '\n' ∉ name →
      (∀ command ∈ script, '\n' ∉ command.text ∧ '\x0c' ∉ command.text) →
        let listing := (Listing.blank layout name).run script
        let source := Source.ofBytes (Utf8.encode listing.render)
        source.fault? = none ∧
          source.lines = listing.lines.toList.map (fun line => line.text ++ ['\n']) ∧
          (∀ line ∈ listing.lines.toList,
            (Heading.IsHeadingLine (line.text ++ ['\n']) ↔ line.isHeading = true) ∧
              (line.isHeading = true →
                ∃ number, line.text = Heading.text name layout.headingWidth number)) ∧
          source.text = listing.lines.toList.flatMap fun line =>
            if line.isHeading then ['\n'] else line.text ++ ['\n'] := by
  refine ⟨fun line => Heading.matches?_iff,
    fun name width number plainName => Heading.isHeadingLine_text plainName width number, ?_⟩
  intro layout name script plainName plain
  have start : (Listing.blank layout name).Headed := by simp [Listing.Headed, Listing.blank]
  have headed := Listing.keptByPages_headed.run start script
  have feedless := (Listing.Lacks.blank layout name '\n').run (by decide) fun command member =>
    (plain command member).1
  have formless := (Listing.Lacks.blank layout name '\x0c').run (by decide) fun command member =>
    (plain command member).2
  have frame : ((Listing.blank layout name).run script).layout = layout := Listing.layout_run _ _
  have named : ((Listing.blank layout name).run script).name = name := Listing.name_run _ _
  generalize (Listing.blank layout name).run script = listing at *
  subst frame named
  dsimp only
  rw [Source.ofBytes_encode]
  refine ⟨rfl, Source.lines_ofText_renderLines (headed.not_mem_text plainName feedless),
    fun line member => ⟨headed.isHeadingLine_iff plainName formless member, fun heading => ?_⟩,
    headed.text_readBack plainName feedless formless⟩
  obtain ⟨number, rfl⟩ := headed line member heading
  exact ⟨number, rfl⟩

/-- The name looks like a heading itself, and so does a line but for its form feed; the pending line
is not written. -/
theorem listing_reads_back_without_headings_page_name :
    let layout : Layout := { linesPerPage := 1 }
    let name := "\x0cPAGE 7\r".toList
    let script : List Command :=
      [.append "x PAGE 3".toList .free, .endLine true, .newPage, .report ['y'], .append ['z'] .free]
    let listing := (Listing.blank layout name).run script
    let source := Source.ofBytes (Utf8.encode listing.render)
    '\n' ∉ name ∧ (∀ command ∈ script, '\n' ∉ command.text ∧ '\x0c' ∉ command.text) ∧
      (source.text = listing.lines.toList.flatMap fun line =>
        if line.isHeading then ['\n'] else line.text ++ ['\n']) ∧
      source.text = "\nx PAGE 3\n\ny\n".toList := by
  intro layout name script listing source
  have plainName : '\n' ∉ name := by decide +kernel
  have plain : ∀ command ∈ script, '\n' ∉ command.text ∧ '\x0c' ∉ command.text := by
    decide +kernel
  obtain ⟨-, -, -, text⟩ :=
    listing_reads_back_without_headings.2.2 layout name script plainName plain
  exact ⟨plainName, plain, text, by decide +kernel⟩

end CListing
