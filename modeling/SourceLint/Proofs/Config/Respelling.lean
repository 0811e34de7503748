import SourceLint.Proofs.Config.Repositioning
import SourceLint.Proofs.Markup.Documents
import SourceLint.Proofs.Markup.Placement
import SourceLint.Proofs.Markup.Writing

/-! # Loading what is spelled

A text that spells an element is parsed to that element, every part of it where it stands in the
text. How the element is spelled shows in nothing but the positions: two texts of one tree are
loaded with one outcome, but for where its parts stand.
-/

namespace SourceLint

/-- The document goes by the path and has the text. -/
def Document.Holds (read : Path → Except ReadError String) (path : Path) (content : String)
    (d : Document) : Prop :=
  d = .text path content ∨ d = .file path ∧ read path = .ok content

theorem Document.Holds.load_eq {read : Path → Except ReadError String} {path : Path}
    {content : String} {d : Document} (holds : d.Holds read path content) :
    d.load read = .ofText path content := by
  rcases holds with rfl | ⟨rfl, there⟩
  · rfl
  · rw [load, there]

namespace Markup

open scoped Text.Each

open Binding (Placed Increasing exists_mapPositions nodes_self)
open Element (positions)

theorem SpellsDocument.placed {text : String} {root : Element} (spells : SpellsDocument text root) :
    Placed root.nodes := by
  intro node member
  obtain ⟨_, _, _, at_⟩ := spells.stand node member
  rw [at_]
  rfl

/-- What spells an element has a `<` in it, and so is not blank. -/
theorem SpellsDocument.not_blank {text : String} {root : Element}
    (spells : SpellsDocument text root) : Text.isBlankText text = false := by
  obtain ⟨inner, outer, split, _⟩ := spells.stand root (nodes_self root)
  rw [Text.isBlankText, split, List.all_append, List.all_cons]
  exact Bool.and_false _

/-- Reading undoes writing. Every element that can be written is spelled by some text; and whatever
text spells it, with or without a declaration, however its tags, quotes and values are written, and
whatever stands between the tags: it is parsed to the element, with all attributes and children
in order, and each element has the position of its `<`. So the positions increase in
document order. Two texts of one tree are loaded with one outcome, in which all that has a position
is taken from where its element stands in the one to where it stands in the other. -/
theorem parse_undoes_spelling {tree : Element} (writable : tree.Writable) :
    (∃ text root, SpellsDocument text root ∧ root.bare = tree.bare) ∧
      ∀ text root, SpellsDocument text root → root.bare = tree.bare →
        parse text = .ok root ∧
        (∀ node ∈ root.nodes, StandsIn [] text.toList node) ∧
        Increasing root.nodes ∧
        ∀ other twin, SpellsDocument other twin → twin.bare = tree.bare →
          ∃ π : Position → Position, twin = root.mapPositions (Option.map π) ∧
            (∀ p ∈ positions root.nodes, ∀ q ∈ positions root.nodes,
              compare (π p) (π q) = compare p q) ∧
            ∀ read read' path d d', Document.Holds read path text d →
              Document.Holds read' path other d' → d'.load read' = (d.load read).move π := by
  refine ⟨?_, fun text root spells same => ⟨parse_of_spells spells, spells.stand, spells.increasing,
    fun other twin spells' same' => ?_⟩⟩
  · obtain ⟨root, spells, same⟩ := writable.exists_spelling
    exact ⟨_, root, spells, same⟩
  · obtain ⟨π, moved, order⟩ := exists_mapPositions (same'.trans same.symm) spells.placed
      spells'.placed spells.increasing spells'.increasing
    have parsed' := parse_of_spells spells'
    rw [moved] at parsed'
    refine ⟨π, moved, order, fun read read' path d d' holds holds' => ?_⟩
    rw [holds.load_eq, holds'.load_eq]
    exact LoadOutcome.ofText_move path spells.not_blank spells'.not_blank (parse_of_spells spells)
      parsed' spells.placed order

/-- A configuration with a threshold, and with a tab that is wider than its line. -/
def wideTab (first second : Option Position) : Element :=
  ⟨"config", [⟨"failOn", "warning"⟩],
    [⟨"LongLine", [⟨"maxLineLength", "3"⟩, ⟨"tabWidth", "8"⟩], [], second⟩], first⟩

/-- The configuration on one line. -/
def wideTabLine : String :=
  "<config failOn=\"warning\"><LongLine maxLineLength=\"3\" tabWidth=\"8\"/></config>"

/-- The same with a declaration, a comment, an instruction, text and a section around its tags. -/
def wideTabLines : String :=
  "<?xml version='1.0'?>\n<!-- lint -->\n<config failOn = 'war&#110;ing'>\n a &lt; b" ++
    "<![CDATA[<c>]]>\n<LongLine maxLineLength=\"3\"\n tabWidth='&#x38;'\n></LongLine ><?pad it?></config >\n"

theorem wideTab_writable : (wideTab none none).Writable :=
  .intro (by decide) (by decide) (by decide)
    (List.forall_mem_singleton.mpr
      (.intro (by decide) (by decide) (by decide) (List.forall_mem_nil _)))

theorem spells_wideTabLine : SpellsDocument wideTabLine (wideTab (some ⟨1, 1⟩) (some ⟨1, 26⟩)) := by
  have quoted (a : Attribute) (named : Unprefixed a.name) (other : a.name ≠ "xmlns")
      (literal : ∀ c ∈ a.value.toList,
        isAllowed c = true ∧ c ∉ ['"'] ∧ c ∉ ['<', '&', '\t', '\n', '\r']) :=
    a.spells_of_denotes " ".toList [] [] (by decide) (by decide) named other (by decide) (by decide)
      (.inl rfl) (by simpa using Denotes.literals ['"'] a.value.toList literal .nil)
  have failOn := quoted ⟨"failOn", "warning"⟩ (by decide) (by decide) (by decide)
  have maxLineLength := quoted ⟨"maxLineLength", "3"⟩ (by decide) (by decide) (by decide)
  have tabWidth := quoted ⟨"tabWidth", "8"⟩ (by decide) (by decide) (by decide)
  have outer : SpellsTag "config" _ _ :=
    .intro (by decide) (by decide) (.cons failOn .nil) spaces_nil
  have inner : SpellsTag "LongLine" _ _ :=
    .intro (by decide) (by decide) (.cons maxLineLength (.cons tabWidth .nil)) spaces_nil
  have content :=
    @SpellsContent.child _ _ "<config failOn=\"warning\">".toList _ _ (.empty inner) .nil
  have root := @SpellsElement.full _ _ _ [] _ _ _ outer content (.intro spaces_nil)
  exact @SpellsDocument.intro wideTabLine _ [] [] [] _ [] (by decide +kernel) (.inl rfl) (.inl rfl)
    .nil root .nil

theorem spells_wideTabLines : SpellsDocument wideTabLines (wideTab (some ⟨3, 1⟩) (some ⟨5, 1⟩)) := by
  have declaration : XmlDeclaration "<?xml version='1.0'?>".toList :=
    @XmlDeclaration.intro " version='1.0'".toList [] [] []
      (@DeclarationPair.intro "version" " ".toList [] [] "1.0".toList '\'' (by decide) (by decide)
        (by decide) (by decide) (.inr rfl) (by decide)) (.inl rfl) (.inl rfl) (by decide)
  have comment : Comment "<!-- lint -->".toList :=
    @Comment.intro " lint ".toList (by decide) (by decide) (by decide)
  have instruction : Instruction "<?pad it?>".toList :=
    @Instruction.intro "pad".toList " it".toList ⟨'p', "ad".toList, rfl, rfl, by decide⟩ (by decide)
      (by decide) (by decide) (by decide)
  have section_ : Section "<![CDATA[<c>]]>".toList :=
    @Section.intro "<c>".toList (by decide) (by decide)
  have feed : TextRun ['\n'] := .intro (by decide) (.lineFeed .nil) (by decide)
  have run : TextRun _ :=
    .intro (by decide) (.lineFeed (.literals [] " a ".toList (by decide)
      (.reference .less (.literals [] " b".toList (by decide) .nil)))) (by decide)
  have letter : Refers 'n' ('#' :: "110".toList) := .decimal rfl (by decide) (by decide) (by decide)
  have digit : Refers '8' ('#' :: 'x' :: "38".toList) :=
    .hexadecimal rfl (by decide) (by decide) (by decide)
  have warning := Denotes.literals ['\''] "war".toList (by decide)
    (.reference letter (.literals ['\''] "ing".toList (by decide) .nil))
  have eight := Denotes.reference digit (@Denotes.nil ['\''])
  have three := Denotes.literals ['"'] "3".toList (by decide) .nil
  have failOn := Attribute.spells_of_denotes ⟨"failOn", "warning"⟩ " ".toList " ".toList " ".toList
    (by decide) (by decide) (by decide) (by decide) (by decide) (by decide) (.inr rfl) warning
  have maxLineLength := Attribute.spells_of_denotes ⟨"maxLineLength", "3"⟩ " ".toList [] []
    (by decide) (by decide) (by decide) (by decide) (by decide) (by decide) (.inl rfl) three
  have tabWidth := Attribute.spells_of_denotes ⟨"tabWidth", "8"⟩ "\n ".toList [] []
    (by decide) (by decide) (by decide) (by decide) (by decide) (by decide) (.inr rfl) eight
  have outer : SpellsTag "config" _ _ :=
    .intro (by decide) (by decide) (.cons failOn .nil) spaces_nil
  have inner : SpellsTag "LongLine" _ _ :=
    @SpellsTag.intro _ _ _ "\n".toList (by decide) (by decide)
      (.cons maxLineLength (.cons tabWidth .nil)) (by decide)
  have closing : ClosingTag "LongLine" _ := @ClosingTag.intro _ " ".toList (by decide)
  have prolog : Misc ('\n' :: ("<!-- lint -->".toList ++ ['\n'])) :=
    .space rfl (.comment comment (.space rfl .nil))
  have epilog : Misc ['\n'] := .space rfl .nil
  have content (before : List Char) := @SpellsContent.text _ before _ _ run (by decide)
    (.data section_ (.text feed (by decide)
      (.child (.full inner .nil closing) (.instruction instruction .nil))))
  have root (before : List Char) := @SpellsElement.full _ _ _ before _ _ _ outer (content _)
    (@ClosingTag.intro _ " ".toList (by decide))
  exact .intro (by decide +kernel) (.inl rfl) (.inr declaration) prolog (root _) epilog

theorem parse_wideTab :
    (wideTab none none).Writable ∧
      parse wideTabLines = .ok (wideTab (some ⟨3, 1⟩) (some ⟨5, 1⟩)) ∧
      parse wideTabLine = .ok (wideTab (some ⟨1, 1⟩) (some ⟨1, 26⟩)) ∧
      ∃ π : Position → Position, π ⟨3, 1⟩ = ⟨1, 1⟩ ∧ π ⟨5, 1⟩ = ⟨1, 26⟩ ∧
        ∀ read path, (Document.text path wideTabLine).load read =
          ((Document.text path wideTabLines).load read).move π := by
  obtain ⟨_, each⟩ := parse_undoes_spelling wideTab_writable
  obtain ⟨parsed, _, _, twins⟩ := each _ _ spells_wideTabLines rfl
  obtain ⟨parsed', _⟩ := each _ _ spells_wideTabLine rfl
  obtain ⟨π, moved, _, loads⟩ := twins _ _ spells_wideTabLine rfl
  have outer := congrArg Element.position moved
  have inner := congrArg (fun e : Element => e.children.map (·.position)) moved
  refine ⟨wideTab_writable, parsed, parsed', π, ?_, ?_, fun read path => ?_⟩
  · exact (Option.some.inj outer).symm
  · exact (Option.some.inj (List.cons.inj inner).1).symm
  · exact loads read read path _ _ (.inl rfl) (.inl rfl)

end Markup

end SourceLint
