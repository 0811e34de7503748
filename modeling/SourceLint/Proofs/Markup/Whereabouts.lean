import SourceLint.Proofs.Markup.Placement

/-! # Where a reader is

Whatever text is read, well formed or not: a reader is at a place of that text, and its position is
told by what stands in front of it. So every error is reported at a place of the text, and every
element stands at a `<` that its name follows, however the rest of the text is spelled.
-/

namespace SourceLint

namespace Position

/-- The position is that of a place in the text. -/
def IsIn (text : List Char) (p : Position) : Prop :=
  ∃ before after, text = before ++ after ∧ p = behind before

theorem isIn_start (text : List Char) : start.IsIn text :=
  ⟨[], text, rfl, rfl⟩

theorem IsIn.pos {text : List Char} {p : Position} (inside : p.IsIn text) :
    0 < p.line ∧ 0 < p.column := by
  obtain ⟨before, _, _, rfl⟩ := inside
  simp [behind]

end Position

namespace Markup

open Position (behind behind_append)
open Element (nodesOfEach)

variable {text cs rest : List Char} {p : Position} {c : Cursor} {α β : Type}

/-! ## Cursors -/

namespace Cursor

/-- The cursor is at a place of the text: what it has left is the text from there on. -/
def IsIn (text : List Char) (c : Cursor) : Prop :=
  ∃ before, text = before ++ c.rest ∧ c.position = behind before

theorem IsIn.position (inside : c.IsIn text) : c.position.IsIn text := by
  obtain ⟨before, split, at_⟩ := inside
  exact ⟨before, c.rest, split, at_⟩

theorem IsIn.past (inside : IsIn text ⟨cs ++ rest, p⟩) : IsIn text ⟨rest, p.after cs⟩ := by
  obtain ⟨before, split, at_⟩ := inside
  refine ⟨before ++ cs, ?_, ?_⟩
  · simpa using split
  · rw [behind_append, ← at_]

theorem IsIn.next {ch : Char} (inside : IsIn text ⟨ch :: rest, p⟩) :
    IsIn text ⟨rest, p.next ch⟩ :=
  @past text [ch] rest p inside

theorem IsIn.advance (inside : c.IsIn text) (n : Nat) : (c.advance n).IsIn text := by
  apply IsIn.past
  rwa [List.take_append_drop]

theorem IsIn.skipWhile (inside : c.IsIn text) (q : Char → Bool) : (c.skipWhile q).IsIn text := by
  apply IsIn.past
  rwa [List.takeWhile_append_dropWhile]

theorem IsIn.skipSpaces (inside : c.IsIn text) : c.skipSpaces.IsIn text :=
  inside.skipWhile isSpace

end Cursor

/-! ## What reading comes to -/

/-- What is read is good, or the error is reported at a place of the text. -/
def Reads (text : List Char) (good : α → Prop) : Except Error α → Prop
  | .ok a => good a
  | .error e => e.position.IsIn text

/-- The reader stays in the text, and what it has read is good. -/
def Stays (text : List Char) (good : α → Prop) (r : α × Cursor) : Prop :=
  good r.1 ∧ r.2.IsIn text

/-- Nothing needs to be known of what is read. -/
abbrev Moves (text : List Char) : Except Error (α × Cursor) → Prop :=
  Reads text (Stays text fun _ => True)

theorem Reads.bind {good : α → Prop} {good' : β → Prop} {x : Except Error α}
    {f : α → Except Error β} (first : Reads text good x)
    (next : ∀ a, good a → Reads text good' (f a)) : Reads text good' (x >>= f) := by
  cases x with
  | error e => exact first
  | ok a => exact next a first

theorem Reads.map {good : α → Prop} {good' : β → Prop} {x : Except Error α} {f : α → β}
    (reads : Reads text good x) (keeps : ∀ a, good a → good' (f a)) :
    Reads text good' (x.map f) := by
  cases x with
  | error e => exact reads
  | ok a => exact keeps a reads

theorem Reads.mono {good good' : α → Prop} {x : Except Error α} (reads : Reads text good x)
    (weaker : ∀ a, good a → good' a) : Reads text good' x := by
  cases x with
  | error e => exact reads
  | ok a => exact weaker a reads

theorem moves_ok {a : α} (inside : c.IsIn text) : Moves text (.ok (a, c)) :=
  ⟨trivial, inside⟩

/-- An error that counts for the whole text is reported at its start. -/
theorem reads_atStart {e : Error} (at_ : e.position = .start) (good : α → Prop) :
    Reads text good (.error e) := by
  change e.position.IsIn text
  rw [at_]
  exact Position.isIn_start text

section Conditions

variable {good : α → Prop} {good' : β → Prop} {e : Error} {condition : Prop} [Decidable condition]

/-- What is refused is refused at a place of the text. -/
theorem Reads.unless {next : Unit → Except Error α} (at_ : e.position.IsIn text)
    (fine : ¬ condition → Reads text good (next ())) :
    Reads text good (if condition then throw e >>= next else next ()) := by
  by_cases fails : condition
  · rw [if_pos fails]
    exact at_
  · rw [if_neg fails]
    exact fine fails

theorem Reads.either {x y : Except Error α} {next : α → Except Error β}
    (first : condition → Reads text good x) (second : ¬ condition → Reads text good y)
    (later : ∀ a, good a → Reads text good' (next a)) :
    Reads text good' (if condition then x >>= next else y >>= next) := by
  split
  · rename_i holds
    exact (first holds).bind later
  · rename_i fails
    exact (second fails).bind later

end Conditions

namespace Cursor

theorem expect_moves (inside : c.IsIn text) (expected : Char) : Moves text (c.expect expected) := by
  rw [expect]
  split
  · exact reads_atStart rfl _
  · split
    · exact moves_ok (inside.advance 1)
    · exact inside.position

theorem expectText_moves (inside : c.IsIn text) (expected : String) :
    Moves text (c.expectText expected) := by
  rw [expectText]
  split
  · exact moves_ok (inside.advance _)
  · exact inside.position

/-- A run of characters is what stands in front of where the reader stops. -/
theorem runFrom_reads (inside : IsIn text ⟨cs, p⟩) (stop : List Char → Bool) :
    Reads text (fun r => cs = r.1 ++ r.2.rest ∧ r.2.IsIn text) (runFrom stop cs p) := by
  induction cs generalizing p with
  | nil => exact ⟨rfl, inside⟩
  | cons ch cs ih =>
      rw [runFrom]
      split
      · exact inside.position
      · split
        · exact ⟨rfl, inside⟩
        · have next : IsIn text ⟨cs, p.next ch⟩ := inside.next
          refine (ih next).map fun r kept => ?_
          exact ⟨congrArg (ch :: ·) kept.1, kept.2⟩

theorem run_reads (inside : c.IsIn text) (stop : List Char → Bool) :
    Reads text (fun r => c.rest = r.1 ++ r.2.rest ∧ r.2.IsIn text) (c.run stop) :=
  runFrom_reads inside stop

theorem runTo_moves (inside : c.IsIn text) (mark : String) : Moves text (c.runTo mark) :=
  (run_reads inside _).mono fun _ kept => ⟨trivial, kept.2⟩

theorem name_moves (inside : c.IsIn text) : Moves text c.name := by
  rw [name]
  split
  · exact inside.position
  · split
    · exact moves_ok ((inside.advance 1).skipWhile _)
    · exact inside.position

end Cursor

open Cursor

/-! ## References -/

theorem Reference.suffix_of_afterSemicolon {r r' : Reference} {after : List Char}
    (read : afterSemicolon r cs = some (r', after)) : after <:+ cs := by
  unfold afterSemicolon at read
  split at read
  · obtain ⟨-, rfl⟩ := Prod.mk.inj (Option.some.inj read)
    exact List.suffix_cons _ _
  · cases read

theorem Reference.suffix_of_read? {r : Reference} {after : List Char}
    (read : read? cs = some (r, after)) : after <:+ cs := by
  unfold read? at read
  split at read
  · obtain ⟨_, _, ends⟩ := Option.bind_eq_some_iff.mp read
    have dropped := (suffix_of_afterSemicolon ends).trans (List.dropWhile_suffix _)
    exact dropped.trans ((List.suffix_cons _ _).trans (List.suffix_cons _ _))
  · obtain ⟨_, _, ends⟩ := Option.bind_eq_some_iff.mp read
    have dropped := (suffix_of_afterSemicolon ends).trans (List.dropWhile_suffix _)
    exact dropped.trans (List.suffix_cons _ _)
  · split at read
    · have dropped := (suffix_of_afterSemicolon read).trans (List.dropWhile_suffix _)
      exact dropped.trans (List.suffix_cons _ _)
    · cases read
  · cases read

/-- The characters stand in the text, at the position. -/
def HoldsAt (text cs : List Char) (p : Position) : Prop :=
  ∃ rest, Cursor.IsIn text ⟨cs ++ rest, p⟩

theorem HoldsAt.position (holds : HoldsAt text cs p) : p.IsIn text := by
  obtain ⟨rest, inside⟩ := holds
  exact inside.position

theorem HoldsAt.past {first : List Char} (holds : HoldsAt text (first ++ cs) p) :
    HoldsAt text cs (p.after first) := by
  obtain ⟨rest, inside⟩ := holds
  refine ⟨rest, Cursor.IsIn.past ?_⟩
  rwa [← List.append_assoc]

theorem HoldsAt.next {ch : Char} (holds : HoldsAt text (ch :: cs) p) :
    HoldsAt text cs (p.next ch) :=
  @past text cs p [ch] holds

theorem denotedIn_reads {steps : Nat} (holds : HoldsAt text cs p) :
    Reads text (fun _ => True) (denotedIn steps cs p) := by
  fun_induction denotedIn steps cs p with
  | case1 | case2 => trivial
  | case3 steps cs p _ | case4 steps cs p _ _ _ => exact holds.position
  | case5 steps cs p ch after read used ih =>
      have beyond : HoldsAt text cs (p.next '&') := holds.next
      obtain ⟨before, rfl⟩ := Reference.suffix_of_read? read
      refine (ih ?_).map fun _ _ => trivial
      have whole : used = before := by simp [used]
      rw [whole]
      exact beyond.past
  | case6 steps ch cs p _ ih =>
      have beyond : HoldsAt text cs (p.next ch) := holds.next
      exact (ih beyond).map fun _ _ => trivial

theorem denoted_reads (holds : HoldsAt text cs p) : Reads text (fun _ => True) (denoted cs p) :=
  (denotedIn_reads holds).map fun _ _ => trivial

/-! ## Tags -/

/-- The name is what the text goes on with. -/
def Spelled (cs : List Char) (name : QualifiedName) : Prop :=
  ∃ spelled rest, cs = spelled ++ rest ∧ QualifiedName.ofChars? spelled = some name

theorem QualifiedName.read_reads (inside : c.IsIn text) :
    Reads text (Stays text (Spelled c.rest)) (QualifiedName.read c) := by
  rw [QualifiedName.read]
  split
  · rename_i name found
    exact ⟨⟨_, _, List.takeWhile_append_dropWhile.symm, found⟩, inside.skipWhile _⟩
  · exact inside.position

theorem readEquals_moves (inside : c.IsIn text) : Moves text (readEquals c) := by
  refine (expect_moves inside.skipSpaces '=').bind ?_
  rintro ⟨_, c⟩ ⟨-, inside⟩
  exact moves_ok inside.skipSpaces

theorem readQuote_moves (inside : c.IsIn text) : Moves text (readQuote c) := by
  rw [readQuote]
  split
  · exact reads_atStart rfl _
  · split
    · exact moves_ok (inside.advance 1)
    · exact inside.position

theorem readPair_reads (inside : c.IsIn text) :
    Reads text (Stays text fun r => HoldsAt text r.2.1 r.2.2) (readPair c) := by
  refine (QualifiedName.read_reads inside).bind ?_
  rintro ⟨name, c⟩ ⟨-, inside⟩
  refine (readEquals_moves inside).bind ?_
  rintro ⟨_, c⟩ ⟨-, inside⟩
  refine (readQuote_moves inside).bind ?_
  rintro ⟨quote, c⟩ ⟨-, inside⟩
  refine (run_reads inside _).bind ?_
  rintro ⟨value, next⟩ ⟨split, beyond⟩
  refine (expect_moves beyond quote).bind ?_
  rintro ⟨_, next'⟩ ⟨-, closed⟩
  refine ⟨⟨next.rest, ?_⟩, closed⟩
  change Cursor.IsIn text ⟨value ++ next.rest, c.position⟩
  rw [← split]
  exact inside

theorem readAttribute_reads (inside : c.IsIn text) :
    Reads text (Stays text fun a => a.position.IsIn text) (readAttribute c) := by
  refine (readPair_reads inside).bind ?_
  rintro ⟨⟨name, raw, at_⟩, next⟩ ⟨holds, closed⟩
  refine (denoted_reads holds).bind ?_
  intro value _
  exact ⟨inside.position, closed⟩

theorem declarationOf_reads {a : RawAttribute} (at_ : a.position.IsIn text)
    (before : List Declaration) : Reads text (fun _ => True) (declarationOf before a) := by
  unfold declarationOf
  repeat' split
  all_goals first | exact at_ | trivial

/-- The tag has the name and the position of another, and its attributes stand in the text. -/
def OpeningTag.Extends (text : List Char) (first tag : OpeningTag) : Prop :=
  tag.name = first.name ∧ tag.position = first.position ∧
    ∀ a ∈ tag.attributes, a.position.IsIn text

theorem readTagRest_reads {first tag : OpeningTag} (steps : Nat) (extends_ : first.Extends text tag)
    (inside : c.IsIn text) :
    Reads text (Stays text (first.Extends text)) (readTagRest steps tag c) := by
  induction steps generalizing tag c with
  | zero => exact ⟨extends_, inside⟩
  | succ steps ih =>
      obtain ⟨name, at_, attributes⟩ := extends_
      rw [readTagRest]
      split
      · exact ⟨⟨name, at_, attributes⟩, inside⟩
      · have spaced := inside.skipSpaces
        dsimp only
        split
        · exact reads_atStart rfl _
        · refine (expect_moves (spaced.advance 1) '>').bind ?_
          rintro ⟨_, c⟩ ⟨-, inside⟩
          exact ⟨⟨name, at_, attributes⟩, inside⟩
        · exact ⟨⟨name, at_, attributes⟩, spaced.advance 1⟩
        · split
          · exact spaced.position
          · refine (readAttribute_reads spaced).bind ?_
            rintro ⟨a, c⟩ ⟨placed, inside⟩
            refine (declarationOf_reads placed _).bind ?_
            intro declared _
            cases declared with
            | some ds => exact ih ⟨name, at_, attributes⟩ inside
            | none =>
                refine ih ⟨name, at_, ?_⟩ inside
                intro b member
                rcases List.mem_append.mp member with earlier | this
                · exact attributes b earlier
                · rw [List.mem_singleton.mp this]
                  exact placed

/-- A tag of that name opens at the position: there are a `<` and then the name. -/
def Opens (text : List Char) (name : QualifiedName) (p : Position) : Prop :=
  ∃ before rest, text = before ++ '<' :: rest ∧ p = behind before ∧ Spelled rest name

theorem Opens.position {name : QualifiedName} (opens : Opens text name p) : p.IsIn text := by
  obtain ⟨before, rest, split, at_, _⟩ := opens
  exact ⟨before, _, split, at_⟩

theorem Opens.next {name : QualifiedName} (opens : Opens text name p) : (p.next '<').IsIn text := by
  obtain ⟨before, rest, split, rfl, _⟩ := opens
  exact ⟨before ++ ['<'], rest, by simpa using split, (Position.behind_concat before '<').symm⟩

/-- The tag opens where it says, and its attributes stand in the text. -/
structure OpeningTag.IsIn (text : List Char) (tag : OpeningTag) : Prop where
  opens : Opens text tag.name tag.position
  attributes : ∀ a ∈ tag.attributes, a.position.IsIn text

theorem readOpeningTag_reads (inside : Cursor.IsIn text ⟨'<' :: rest, p⟩) :
    Reads text (Stays text (OpeningTag.IsIn text)) (readOpeningTag ⟨'<' :: rest, p⟩) := by
  have beyond := inside.advance 1
  refine (QualifiedName.read_reads beyond).bind ?_
  rintro ⟨name, next⟩ ⟨spelled, inside'⟩
  refine Reads.unless beyond.position fun _ => ?_
  have none : ∀ a ∈ ([] : List RawAttribute), a.position.IsIn text := by simp
  refine (readTagRest_reads _ ⟨rfl, rfl, none⟩ inside').mono ?_
  rintro ⟨tag, c⟩ ⟨⟨named, at_, attributes⟩, inside''⟩
  obtain ⟨before, split, placed⟩ := inside
  refine ⟨⟨⟨before, rest, split, at_.trans placed, ?_⟩, attributes⟩, inside''⟩
  rw [named]
  exact spelled

theorem readClosingTag_moves (inside : c.IsIn text) : Moves text (readClosingTag c) := by
  refine (QualifiedName.read_reads (inside.advance 2)).bind ?_
  rintro ⟨name, next⟩ ⟨-, inside⟩
  refine (expect_moves inside.skipSpaces '>').bind ?_
  rintro ⟨_, next⟩ ⟨-, inside⟩
  exact moves_ok inside

/-! ## Pieces between tags -/

theorem readComment_moves (inside : c.IsIn text) : Moves text (readComment c) := by
  refine (runTo_moves (inside.advance 4) "-->").bind ?_
  rintro ⟨_, next⟩ ⟨-, inside'⟩
  refine (expectText_moves inside' "-->").bind ?_
  rintro ⟨_, next⟩ ⟨-, inside'⟩
  exact Reads.unless inside.position fun _ => moves_ok inside'

theorem readInstruction_moves (inside : c.IsIn text) : Moves text (readInstruction c) := by
  rw [readInstruction]
  refine Reads.unless inside.position fun _ => ?_
  refine (name_moves (inside.advance 2)).bind ?_
  rintro ⟨_, next⟩ ⟨-, inside⟩
  refine (runTo_moves inside.skipSpaces "?>").bind ?_
  rintro ⟨_, next⟩ ⟨-, inside⟩
  exact expectText_moves inside "?>"

theorem readSection_moves (inside : c.IsIn text) : Moves text (readSection c) := by
  refine (runTo_moves (inside.advance 9) "]]>").bind ?_
  rintro ⟨_, next⟩ ⟨-, inside⟩
  exact expectText_moves inside "]]>"

theorem readText_moves (inside : c.IsIn text) : Moves text (readText c) := by
  refine (run_reads inside _).bind ?_
  rintro ⟨run, next⟩ ⟨split, inside'⟩
  refine Reads.unless inside'.position fun _ => ?_
  have holds : HoldsAt text run c.position := by
    refine ⟨next.rest, ?_⟩
    rw [← split]
    exact inside
  refine ((denoted_reads holds).map fun _ _ => trivial).bind fun _ (_ : True) => ?_
  exact moves_ok inside'

theorem readDeclarationGap_moves (inside : c.IsIn text) : Moves text (readDeclarationGap c) := by
  rw [readDeclarationGap]
  repeat' split
  · exact moves_ok inside
  · exact moves_ok inside.skipSpaces
  · exact moves_ok inside
  · exact inside.position

theorem readOptionalPair_moves (inside : c.IsIn text) (name : String) :
    Moves text (readOptionalPair name c) := by
  rw [readOptionalPair]
  split
  · refine (readPair_reads inside).bind ?_
    rintro ⟨_, c⟩ ⟨-, inside⟩
    exact moves_ok inside
  · exact moves_ok inside

theorem readDeclaration_moves (inside : c.IsIn text) : Moves text (readDeclaration c) := by
  refine (readDeclarationGap_moves (inside.advance 5)).bind ?_
  rintro ⟨_, c⟩ ⟨-, inside⟩
  refine Reads.unless inside.position fun _ => ?_
  refine (readPair_reads inside).bind ?_
  rintro ⟨_, c⟩ ⟨-, inside⟩
  refine (readDeclarationGap_moves inside).bind ?_
  rintro ⟨_, c⟩ ⟨-, inside⟩
  refine (readOptionalPair_moves inside "encoding").bind ?_
  rintro ⟨encoded, c⟩ ⟨-, inside⟩
  refine Reads.either (fun _ => readDeclarationGap_moves inside) (fun _ => moves_ok inside) ?_
  rintro ⟨_, c⟩ ⟨-, inside⟩
  refine (readOptionalPair_moves inside "standalone").bind ?_
  rintro ⟨_, c⟩ ⟨-, inside⟩
  exact expectText_moves inside.skipSpaces "?>"

/-! ## Elements -/

/-- The element has the position of a `<` in the text, and behind that stands its name. -/
def Element.StartsIn (text : List Char) (node : Element) : Prop :=
  ∃ name p, node.name = name.local ∧ node.position = some p ∧ Opens text name p

theorem mem_nodesOfEach {node : Element} {elements : List Element} :
    node ∈ nodesOfEach elements ↔ ∃ e ∈ elements, node ∈ e.nodes := by
  induction elements with
  | nil => simp [nodesOfEach]
  | cons e rest ih => simp [nodesOfEach, ih]

/-- The element opens in the text, and so do all that are in it so far. -/
structure OpenElement.IsIn (text : List Char) (e : OpenElement) : Prop where
  opens : Opens text e.name e.position
  inside : ∀ child ∈ e.children, ∀ node ∈ child.nodes, node.StartsIn text

namespace OpenElement.IsIn

variable {e : OpenElement}

theorem close (inside : e.IsIn text) : ∀ node ∈ e.close.nodes, node.StartsIn text := by
  intro node member
  rw [Binding.nodes_eq] at member
  rcases List.mem_cons.mp member with rfl | within
  · exact ⟨e.name, e.position, rfl, rfl, inside.opens⟩
  · obtain ⟨child, there, within⟩ := mem_nodesOfEach.mp within
    exact inside.inside child (List.mem_reverse.mp there) node within

theorem add {child : Element} (inside : e.IsIn text)
    (starts : ∀ node ∈ child.nodes, node.StartsIn text) : (e.add child).IsIn text := by
  refine ⟨inside.opens, fun other member => ?_⟩
  rcases List.mem_cons.mp member with rfl | earlier
  · exact starts
  · exact inside.inside other earlier

end OpenElement.IsIn

theorem resolve_reads {at_ : Position} (inside : at_.IsIn text) (scope : List Declaration)
    (qualifier : String) : Reads text (fun _ => True) (resolve scope qualifier at_) := by
  unfold resolve
  split
  · trivial
  · split
    · trivial
    · exact inside

theorem attributeNamespace_reads {a : RawAttribute} (inside : a.position.IsIn text)
    (scope : List Declaration) : Reads text (fun _ => True) (attributeNamespace scope a) := by
  unfold attributeNamespace
  split
  · trivial
  · split
    · trivial
    · exact resolve_reads inside _ _

theorem resolveAttributes_reads {attributes : List RawAttribute}
    (inside : ∀ a ∈ attributes, a.position.IsIn text) (scope : List Declaration)
    (seen : List (Option String × String)) :
    Reads text (fun _ => True) (resolveAttributes scope seen attributes) := by
  induction attributes generalizing seen with
  | nil => trivial
  | cons a rest ih =>
      obtain ⟨here, later⟩ := List.forall_mem_cons.mp inside
      refine (attributeNamespace_reads here scope).bind fun found _ => ?_
      refine Reads.unless here fun _ => ?_
      exact (ih later _).bind fun _ _ => trivial

theorem openElement_reads {tag : OpeningTag} (inside : tag.IsIn text) (scope : List Declaration) :
    Reads text (OpenElement.IsIn text) (openElement scope tag) := by
  refine (resolveAttributes_reads inside.attributes _ _).bind fun attributes _ => ?_
  refine (resolve_reads inside.opens.next _ _).bind fun _ _ => ?_
  exact ⟨inside.opens, by simp⟩

/-! ## Documents -/

/-- What is read is an element of the text, with all that are in it. -/
abbrev FindsElement (text : List Char) : Except Error (Element × Cursor) → Prop :=
  Reads text (Stays text fun e => ∀ node ∈ e.nodes, node.StartsIn text)

/-- The induction is on the steps: each piece that is read leaves the reader in the text, and the
elements that are open in it. -/
theorem readContent_reads {steps : Nat} {top : OpenElement} {outer : List OpenElement}
    (open_ : top.IsIn text) (around : ∀ e ∈ outer, e.IsIn text) (inside : c.IsIn text) :
    FindsElement text (readContent steps top outer c) := by
  induction steps generalizing top outer c with
  | zero => exact reads_atStart rfl _
  | succ steps ih =>
      have goOn {r : Except Error (Unit × Cursor)} (moves : Moves text r) :
          FindsElement text (r >>= fun (_, c) => readContent steps top outer c) :=
        moves.bind fun _ kept => ih open_ around kept.2
      -- By what comes next: nothing, a tag that is cut off, a comment or a section, an instruction,
      -- a closing tag, an opening tag, text.
      rw [readContent]
      split
      · exact reads_atStart rfl _
      · exact inside.position
      · split
        · exact goOn (readComment_moves inside)
        · split
          · exact goOn (readSection_moves inside)
          · exact inside.position
      · exact goOn (readInstruction_moves inside)
      · refine (readClosingTag_moves inside).bind ?_
        rintro ⟨name, next⟩ ⟨-, inside'⟩
        refine Reads.unless inside.position fun _ => ?_
        split
        · exact ⟨open_.close, inside'⟩
        · obtain ⟨here, further⟩ := List.forall_mem_cons.mp around
          exact ih (here.add open_.close) further inside'
      · rename_i rest _ _ _ _ begins
        obtain ⟨_, p⟩ := c
        obtain rfl : _ = '<' :: rest := begins
        refine (readOpeningTag_reads inside).bind ?_
        rintro ⟨tag, next⟩ ⟨opened, inside'⟩
        dsimp only
        split
        · exact reads_atStart rfl _
        · exact (openElement_reads opened _).bind fun e started =>
            ih (open_.add started.close) around inside'
        · exact (openElement_reads opened _).bind fun e started =>
            ih started (List.forall_mem_cons.mpr ⟨open_, around⟩) inside'
      · exact goOn (readText_moves inside)

theorem readMisc_moves {steps : Nat} (inside : c.IsIn text) : Moves text (readMisc steps c) := by
  induction steps generalizing c with
  | zero => exact moves_ok inside
  | succ steps ih =>
      have spaced := inside.skipSpaces
      rw [readMisc]
      dsimp only
      split
      · exact (readComment_moves spaced).bind fun _ kept => ih kept.2
      · split
        · exact (readInstruction_moves spaced).bind fun _ kept => ih kept.2
        · exact moves_ok spaced

/-- What is read is an element of the text, or none. -/
abbrev FindsElement? (text : List Char) : Except Error (Option Element × Cursor) → Prop :=
  Reads text (Stays text fun e => ∀ root ∈ e, ∀ node ∈ root.nodes, node.StartsIn text)

theorem readRoot_reads (inside : Cursor.IsIn text ⟨'<' :: rest, p⟩) :
    FindsElement? text (readRoot ⟨'<' :: rest, p⟩) := by
  refine (readOpeningTag_reads inside).bind ?_
  rintro ⟨tag, c⟩ ⟨opened, inside⟩
  dsimp only
  split
  · exact ⟨by simp, inside⟩
  · refine (openElement_reads opened []).bind fun e started => ?_
    exact ⟨by simpa using started.close, inside⟩
  · refine (openElement_reads opened []).bind fun e started => ?_
    refine (readContent_reads started (by simp) inside).bind ?_
    rintro ⟨root, c⟩ ⟨starts, inside⟩
    exact ⟨by simpa using starts, inside⟩

/-- What is true of the root element wherever its tag starts is true of that of the text. -/
theorem readDocument_reads {good : Option Element → Prop} (absent : good none)
    (root : ∀ {rest : List Char} {p : Position}, Cursor.IsIn text ⟨'<' :: rest, p⟩ →
      Reads text (Stays text good) (readRoot ⟨'<' :: rest, p⟩))
    (inside : c.IsIn text) : Reads text (Stays text good) (readDocument c) := by
  rw [readDocument]
  refine Reads.either (fun _ => readDeclaration_moves inside) (fun _ => moves_ok inside) ?_
  rintro ⟨_, c⟩ ⟨-, inside⟩
  refine (readMisc_moves inside).bind ?_
  rintro ⟨_, c⟩ ⟨-, inside⟩
  refine Reads.unless (Position.isIn_start text) fun _ => ?_
  have atRoot (begins : c.startsWith "<" = true) : Reads text (Stays text good) (readRoot c) := by
    obtain ⟨cs, p⟩ := c
    obtain ⟨rest, rfl⟩ := List.isPrefixOf_iff_prefix.mp begins
    exact root inside
  refine Reads.either atRoot (fun _ => ⟨absent, inside⟩) ?_
  rintro ⟨root, c⟩ ⟨good, inside⟩
  refine (readMisc_moves inside).bind ?_
  rintro ⟨_, c⟩ ⟨-, inside⟩
  exact Reads.unless inside.position fun _ => ⟨good, inside⟩

theorem parse_reads (text : String) {good : Option Element → Prop} (absent : good none)
    (root : ∀ {rest : List Char} {p : Position}, Cursor.IsIn text.toList ⟨'<' :: rest, p⟩ →
      Reads text.toList (Stays text.toList good) (readRoot ⟨'<' :: rest, p⟩)) :
    Reads text.toList (fun root => good (some root)) (parse text) := by
  have front : Cursor.IsIn text.toList (ofChars text.toList) := ⟨[], rfl, rfl⟩
  have inside : Cursor.IsIn text.toList
      (if (ofChars text.toList).startsWith "\ufeff" then (ofChars text.toList).advance 1
        else ofChars text.toList) := by
    split
    · exact front.advance 1
    · exact front
  refine (readDocument_reads absent root inside).bind ?_
  rintro ⟨root, c⟩ ⟨good, -⟩
  cases root with
  | none => exact Position.isIn_start _
  | some root => exact good

/-- Every error is reported at a place of the text, and every element that is read has the position
of its `<` there. -/
theorem parse_startsIn (text : String) :
    Reads text.toList (fun root => ∀ node ∈ root.nodes, node.StartsIn text.toList)
      (parse text) :=
  (parse_reads text (by simp) readRoot_reads).mono fun root starts => starts root rfl

theorem startsIn_of_parse {text : String} {root : Element} (parsed : parse text = .ok root) :
    ∀ node ∈ root.nodes, node.StartsIn text.toList := by
  have reads := parse_startsIn text
  rwa [parsed] at reads

theorem position_of_parse {text : String} {e : Error} (failed : parse text = .error e) :
    e.position.IsIn text.toList := by
  have reads := parse_startsIn text
  rwa [failed] at reads

end Markup

end SourceLint
