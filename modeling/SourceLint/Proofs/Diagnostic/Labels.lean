import SourceLint.Proofs.Config.Reporting
import SourceLint.Proofs.Text.Offsets

/-! # Where a label points

A diagnostic counts the characters of its line, a label counts bytes, and the one is taken for the
other. So a label points at the place of its diagnostic just where all in front of it on its line
is ASCII. Each character there that takes more bytes moves the label further to the left, into the
middle of a character if need be. But it does not leave its line, and labels are in the order of
their diagnostics.
-/

namespace SourceLint

open Markup (Element)
open Position (behind)
open Text (HasLine IsAscii byteLength lastLine)

variable {x : Diagnostic} {before after : String}

namespace Diagnostic

/-- The diagnostic is behind the text: on its last line, after the characters that are there. -/
structure IsBehind (x : Diagnostic) (before : String) : Prop where
  line : x.line = before.toList.count '\n'
  column : x.column = (lastLine before.toList).length

theorem isBehind_iff : x.IsBehind before ↔ x.IsAt (behind before.toList) := by
  rw [IsAt, Text.behind_eq, Position.mk.injEq]
  constructor
  · rintro ⟨line, column⟩
    omega
  · rintro ⟨line, column⟩
    constructor <;> omega

/-- The label points between the two texts, or to the left of that by the bytes that characters on
the line take beyond one each. -/
structure Labels (x : Diagnostic) (before after : String) : Prop where
  short : x.offsetIn (before ++ after) + byteLength (lastLine before.toList) =
    before.utf8ByteSize + (lastLine before.toList).length
  exact_iff : x.offsetIn (before ++ after) = before.utf8ByteSize ↔ IsAscii (lastLine before.toList)
  boundary : IsAscii (lastLine before.toList) →
    String.Pos.Raw.IsValid (before ++ after) ⟨x.offsetIn (before ++ after)⟩

theorem IsBehind.labels (behind : x.IsBehind before) (after : String) : x.Labels before after := by
  have offset : x.offsetIn (before ++ after) = Text.offsetOf (before.toList ++ after.toList)
      (before.toList.count '\n') (lastLine before.toList).length := by
    rw [offsetIn, behind.line, behind.column, String.toList_append]
  have exact_iff : x.offsetIn (before ++ after) = before.utf8ByteSize ↔
      IsAscii (lastLine before.toList) := by
    rw [offset, ← Text.byteLength_toList, Text.offsetOf_eq_byteLength_iff]
  refine ⟨?_, exact_iff, fun plain => ?_⟩
  · rw [offset, ← Text.byteLength_toList, Text.offsetOf_lastLine]
  · rw [String.Pos.Raw.isValid_iff_exists_append, exact_iff.mpr plain]
    exact ⟨before, after, rfl, rfl⟩

/-- The diagnostic is what binding the root, or validating what it is bound to, says of the
element. -/
inductive IsAbout (root node : Element) (x : Diagnostic) : Prop where
  | mismatch {e : Binding.Error} (failed : Config.bind root = .error e) (about : e.IsAbout node)
      (words : x.message = e.message)
  | issue {config : Config} {i : Issue} (bound : Config.bind root = .ok config)
      (raised : i ∈ config.validate) (about : i.IsAbout node) (words : x.message = i.message)

end Diagnostic

section

variable {read : Path → Except ReadError String} {d : Document} {path : Path} {content : String}
  {root : Element}

/-- A document that parses has diagnostics about its elements only, each where its element
stands. -/
theorem Document.Holds.isAbout_of_mem_diagnostics (holds : d.Holds read path content)
    (parsed : Markup.parse content = .ok root) (said : x ∈ (d.load read).diagnostics) :
    ∃ node ∈ root.nodes, x.IsAbout root node ∧ ∃ p, node.StandsAt content p ∧ x.IsAt p := by
  rw [holds.load_eq, LoadOutcome.ofText] at said
  split at said
  · cases said
  · rw [parsed] at said
    dsimp only at said
    split at said
    · rename_i e failed
      obtain ⟨node, member, about, p, stands, at_⟩ := exists_standsAt_of_bind parsed failed
      rw [LoadOutcome.diagnostics_failed, LoadFailure.position?, at_, List.mem_singleton] at said
      subst said
      exact ⟨node, member, .mismatch failed about rfl, p, stands,
        Diagnostic.isAt_ofConfig stands.isIn.pos path _⟩
    · rename_i config bound
      obtain ⟨i, raised, rfl⟩ := List.mem_map.mp said
      obtain ⟨node, member, about, stands⟩ := exists_standsAt_of_issue parsed bound raised
      exact ⟨node, member, .issue bound raised about rfl, i.position, stands,
        Diagnostic.isAt_ofConfig stands.isIn.pos path _⟩

end

/-- At every place of a text, and at the `<` of every element that a document with that text is at
fault in, a label is exact where its line is ASCII up to there, and falls short elsewhere. -/
theorem Diagnostic.label_exact_iff (content : String) :
    (∀ (before after : String) (x : Diagnostic), content = before ++ after → x.IsBehind before →
      x.Labels before after) ∧
    ∀ (read : Path → Except ReadError String) (d : Document) (path : Path) (root : Element),
      d.Holds read path content → Markup.parse content = .ok root →
      ∀ x ∈ (d.load read).diagnostics, ∃ node ∈ root.nodes, x.IsAbout root node ∧
        ∃ before rest name, content = before ++ ("<" ++ rest) ∧ node.name = name.local ∧
          Markup.Spelled rest.toList name ∧ node.position = some (behind before.toList) ∧
          x.Labels before ("<" ++ rest) := by
  constructor
  · rintro before after x rfl behind
    exact behind.labels after
  · intro read d path root holds parsed x said
    obtain ⟨node, member, about, p, stands, at_⟩ := holds.isAbout_of_mem_diagnostics parsed said
    obtain ⟨position, name, named, before, rest, split, rfl, spelled⟩ := stands
    rw [← String.toList_ofList (l := before)] at at_
    refine ⟨node, member, about, .ofList before, .ofList rest, name, ?_, named, ?_, ?_, ?_⟩
    · rw [← String.toList_inj, split]
      simp
    · rwa [String.toList_ofList]
    · rwa [String.toList_ofList]
    · exact (isBehind_iff.mpr at_).labels _

/-- What a load has to say of an unknown element. -/
def Diagnostic.unknown (line column : Nat) : Diagnostic :=
  ⟨some ⟨"podlint.xml"⟩, line, column, .error, configCode, configRule,
    "unknown element <Nope> inside <config>"⟩

/-- A document with an unknown element on the line behind an accent. -/
def Document.unknownBelow : Document :=
  .text ⟨"podlint.xml"⟩ "<config>é\n<Nope/></config>"

theorem Document.parse_unknownBelow : Markup.parse "<config>é\n<Nope/></config>" =
    .ok ⟨"config", [], [⟨"Nope", [], [], some ⟨2, 1⟩⟩], some ⟨1, 1⟩⟩ :=
  rfl

theorem Document.diagnostics_unknownBelow :
    (unknownBelow.load fun _ => .error .notFound).diagnostics = [.unknown 1 0] := by
  decide +kernel

/-- An accent on an earlier line does not move the label. -/
theorem Diagnostic.label_belowAccent :
    (unknown 1 0).IsBehind "<config>é\n" ∧
      (unknown 1 0).offsetIn ("<config>é\n" ++ "<Nope/></config>") = 11 ∧
      ∃ root, Markup.parse "<config>é\n<Nope/></config>" = .ok root ∧
        unknown 1 0 ∈ (Document.unknownBelow.load fun _ => .error .notFound).diagnostics ∧
        ∃ node ∈ root.nodes, (unknown 1 0).IsAbout root node := by
  have behind : (unknown 1 0).IsBehind "<config>é\n" := ⟨by decide, by decide⟩
  have labels := (label_exact_iff _).1 "<config>é\n" "<Nope/></config>" _ rfl behind
  have plain : IsAscii (lastLine "<config>é\n".toList) := List.forall_mem_nil _
  have said : unknown 1 0 ∈ (Document.unknownBelow.load fun _ => .error .notFound).diagnostics := by
    rw [Document.diagnostics_unknownBelow]
    exact List.mem_singleton_self _
  obtain ⟨node, member, about, _⟩ :=
    (label_exact_iff _).2 _ _ _ _ (.inl rfl) Document.parse_unknownBelow _ said
  exact ⟨behind, labels.exact_iff.mpr plain, _, Document.parse_unknownBelow, said, node, member,
    about⟩

/-- An accent on the line itself does: the label is in the middle of the accented letter, and the
element one byte further to the right. -/
theorem Diagnostic.label_besideAccent :
    let content := "<config>é" ++ "<Nope/></config>"
    ((Document.text ⟨"podlint.xml"⟩ content).load fun _ => .error .notFound).diagnostics =
        [unknown 0 9] ∧
      (unknown 0 9).IsBehind "<config>é" ∧ "<config>é".utf8ByteSize = 10 ∧
      (unknown 0 9).offsetIn content = 9 ∧ ¬ String.Pos.Raw.IsValid content ⟨9⟩ :=
  ⟨by decide +kernel, ⟨by decide, by decide⟩, by decide, by decide, by decide +kernel⟩

/-! ## Labels in order -/

/-- The offset is that of the line and the column: the bytes in front of the line and the column, as
long as that is on the line, or else the bytes up to the line's end. Where there is no such line it
is the end of the text. It is reached without a sum that a machine word does not hold. -/
structure Text.Clamps (text : String) (line column offset : Nat) : Prop where
  on : ∀ before body after, HasLine text.toList line before body after →
    offset = byteLength before + min column (byteLength body)
  past : (∀ before body after, ¬ HasLine text.toList line before body after) →
    offset = text.utf8ByteSize
  inside : offset ≤ text.utf8ByteSize
  /-- The line feed that ends the line is right behind it. -/
  stays : ∀ before body after, HasLine text.toList line before body after →
    byteLength before ≤ offset ∧ offset ≤ byteLength (before ++ body)
  inWords : text.utf8ByteSize ≤ Text.maxWord →
    Text.wordOffset? 0 (Text.pieces text.toList) line column = some offset

theorem Text.clamps_offsetOf (text : String) (line column : Nat) :
    Clamps text line column (offsetOf text.toList line column) where
  on _ _ _ has := offsetOf_of_hasLine has column
  past absent := by rw [offsetOf_of_not_hasLine absent, byteLength_toList]
  inside := by
    rw [← byteLength_toList]
    exact offsetOf_le _ _ _
  stays before body after has := by
    rw [offsetOf_of_hasLine has, byteLength_append]
    omega
  inWords fits := by
    rw [← byteLength_toList] at fits
    exact wordOffset?_pieces fits line column

/-- Labels in a text are in the order of their diagnostics. -/
theorem Diagnostic.Precedes.offsetIn_le {x y : Diagnostic} (precedes : x.Precedes y)
    (source : String) : x.offsetIn source ≤ y.offsetIn source :=
  Text.offsetOf_mono precedes source.toList

/-- In every text an offset stays on its line and is in the order of lines and columns, so the
labels of all that a load has to say are in order too. -/
theorem Diagnostic.labels_inOrder :
    (∀ (text : String) (line column : Nat),
      Text.Clamps text line column (Text.offsetOf text.toList line column)) ∧
    (∀ (text : String) (line column line' column' : Nat),
      line < line' ∨ line = line' ∧ column ≤ column' →
        Text.offsetOf text.toList line column ≤ Text.offsetOf text.toList line' column') ∧
    ∀ (read : Path → Except ReadError String) (d : Document) (source : String),
      (d.load read).diagnostics.Pairwise fun x y => x.offsetIn source ≤ y.offsetIn source := by
  refine ⟨Text.clamps_offsetOf, ?_, ?_⟩
  · intro text line column line' column' ordered
    exact Text.offsetOf_mono ordered text.toList
  · intro read d source
    exact (d.exits_load read).ordered.imp fun precedes => precedes.offsetIn_le source

/-- A column far behind the end of a line is cut there, in front of the empty line that follows, and
so is not behind the last line. -/
theorem Diagnostic.labels_pastLineEnd :
    HasLine "é\n\nab".toList 0 [] ['é'] "\n\nab".toList ∧
      Text.offsetOf "é\n\nab".toList 0 99 = 2 ∧ Text.offsetOf "é\n\nab".toList 2 0 = 4 ∧
      Text.offsetOf "é\n\nab".toList 0 99 ≤ Text.offsetOf "é\n\nab".toList 2 0 ∧
      (∀ before body after, ¬ HasLine "é\n\nab".toList 7 before body after) ∧
      Text.offsetOf "é\n\nab".toList 7 0 = 6 ∧
      Text.wordOffset? 0 (Text.pieces "é\n\nab".toList) 2 1 = some 5 := by
  have first : HasLine "é\n\nab".toList 0 [] ['é'] "\n\nab".toList :=
    ⟨rfl, rfl, Text.endsLine_nil, by decide, .inl ⟨"\nab".toList, rfl⟩⟩
  have third : HasLine "é\n\nab".toList 2 "é\n\n".toList "ab".toList [] :=
    ⟨rfl, rfl, (Text.endsLine_nil.behind []).behind ['é'], by decide, .inr ⟨rfl, by decide⟩⟩
  have none : ∀ before body after, ¬ HasLine "é\n\nab".toList 7 before body after := by
    intro before body after has
    have feeds := congrArg (List.count '\n') has.split
    rw [List.count_append, has.counts] at feeds
    have two : "é\n\nab".toList.count '\n' = 2 := rfl
    omega
  obtain ⟨clamps, ordered, -⟩ := labels_inOrder
  exact ⟨first, (clamps _ 0 99).on _ _ _ first, (clamps _ 2 0).on _ _ _ third,
    ordered _ 0 99 2 0 (.inl (by decide)), none, (clamps _ 7 0).past none,
    (clamps _ 2 1).inWords (by decide)⟩

end SourceLint
