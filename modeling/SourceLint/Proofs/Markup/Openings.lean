import Mathlib.Data.List.Nodup
import SourceLint.Proofs.Markup.Whereabouts

/-! # The opening tags of a document

A reader only goes on in its text. So the opening tags of a document are read one behind the other,
and its elements, in document order, are those that the tags open: the positions increase, and the
attributes are those of the tag, no two of them with one qualified name.
-/

namespace SourceLint.Markup

open Binding (Increasing nodes_eq)
open Element (nodesOfEach positions)
open Position (after_append compare_after)

variable {α β : Type} {start c d : Cursor} {text : List Char}

/-! ## Going on -/

namespace Cursor

/-- The one cursor gets to the other by taking characters off the front. -/
def Leads (c d : Cursor) : Prop :=
  ∃ used, c.rest = used ++ d.rest ∧ d.position = c.position.after used

theorem Leads.refl (c : Cursor) : c.Leads c :=
  ⟨[], rfl, rfl⟩

theorem Leads.past {used rest : List Char} {p : Position} (leads : start.Leads ⟨used ++ rest, p⟩) :
    start.Leads ⟨rest, p.after used⟩ := by
  obtain ⟨before, split, rfl⟩ := leads
  refine ⟨before ++ used, ?_, ?_⟩
  · rw [split, List.append_assoc]
  · rw [after_append]

theorem Leads.next {ch : Char} {rest : List Char} {p : Position}
    (leads : start.Leads ⟨ch :: rest, p⟩) : start.Leads ⟨rest, p.next ch⟩ :=
  @past start [ch] rest p leads

theorem Leads.advance (leads : start.Leads c) (n : Nat) : start.Leads (c.advance n) := by
  apply Leads.past
  rwa [List.take_append_drop]

theorem Leads.skipWhile (leads : start.Leads c) (q : Char → Bool) :
    start.Leads (c.skipWhile q) := by
  apply Leads.past
  rwa [List.takeWhile_append_dropWhile]

theorem Leads.skipSpaces (leads : start.Leads c) : start.Leads c.skipSpaces :=
  leads.skipWhile isSpace

/-- What is in front of a place stays in front of all that comes after it. -/
theorem Leads.beyond {p : Position} (leads : c.Leads d) (before : compare p c.position = .lt) :
    compare p d.position = .lt := by
  obtain ⟨used, -, at_⟩ := leads
  rw [at_]
  cases used with
  | nil => exact before
  | cons ch used => exact Std.TransCmp.lt_trans before (compare_after (List.cons_ne_nil _ _) _)

theorem Leads.isIn (leads : c.Leads d) (inside : c.IsIn text) : d.IsIn text := by
  obtain ⟨rest, p⟩ := d
  obtain ⟨used, split, rfl⟩ := leads
  apply IsIn.past
  rwa [← split]

end Cursor

open Cursor (Leads)

/-- What is returned, if anything is, is good. -/
def Returns (good : α → Prop) : Except Error α → Prop
  | .ok a => good a
  | .error _ => True

/-- A reader that started somewhere has gone on from there. -/
abbrev GoesOn (start : Cursor) : Except Error (α × Cursor) → Prop :=
  Returns fun r => start.Leads r.2

theorem Returns.bind {good : α → Prop} {good' : β → Prop} {x : Except Error α}
    {f : α → Except Error β} (first : Returns good x)
    (next : ∀ a, good a → Returns good' (f a)) : Returns good' (x >>= f) := by
  cases x with
  | error e => trivial
  | ok a => exact next a first

theorem Returns.mono {good good' : α → Prop} {x : Except Error α} (returns : Returns good x)
    (weaker : ∀ a, good a → good' a) : Returns good' x := by
  cases x with
  | error e => trivial
  | ok a => exact weaker a returns

theorem returns_bind {good : β → Prop} {x : Except Error α} {f : α → Except Error β}
    (next : ∀ a, x = .ok a → Returns good (f a)) : Returns good (x >>= f) := by
  cases x with
  | error e => trivial
  | ok a => exact next a rfl

theorem Returns.of_ok {good : α → Prop} {x : Except Error α} {a : α} (returns : Returns good x)
    (read : x = .ok a) : good a := by
  subst read
  exact returns

theorem Returns.unless {good : α → Prop} {e : Error} {condition : Prop} [Decidable condition]
    {next : Unit → Except Error α} (fine : ¬ condition → Returns good (next ())) :
    Returns good (if condition then throw e >>= next else next ()) := by
  split
  · trivial
  · rename_i passes
    exact fine passes

theorem Reads.and {good good' : α → Prop} {x : Except Error α} (reads : Reads text good x)
    (returns : Returns good' x) : Reads text (fun a => good a ∧ good' a) x := by
  cases x with
  | error e => exact reads
  | ok a => exact ⟨reads, returns⟩

namespace Cursor

theorem expect_goesOn (leads : start.Leads c) (expected : Char) :
    GoesOn start (c.expect expected) := by
  rw [expect]
  split
  · trivial
  · split
    · exact leads.advance 1
    · trivial

theorem expectText_goesOn (leads : start.Leads c) (expected : String) :
    GoesOn start (c.expectText expected) := by
  rw [expectText]
  split
  · exact leads.advance _
  · trivial

theorem runFrom_goesOn {cs : List Char} {p : Position} (leads : start.Leads ⟨cs, p⟩)
    (stop : List Char → Bool) : GoesOn start (runFrom stop cs p) := by
  induction cs generalizing p with
  | nil => exact leads
  | cons ch cs ih =>
      rw [runFrom]
      split
      · trivial
      · split
        · exact leads
        · have further := ih leads.next
          cases run : runFrom stop cs (p.next ch) with
          | error e => trivial
          | ok r =>
              rw [run] at further
              exact further

theorem run_goesOn (leads : start.Leads c) (stop : List Char → Bool) :
    GoesOn start (c.run stop) :=
  runFrom_goesOn leads stop

theorem name_goesOn (leads : start.Leads c) : GoesOn start c.name := by
  rw [name]
  split
  · trivial
  · split
    · exact (leads.advance 1).skipWhile _
    · trivial

end Cursor

open Cursor

theorem QualifiedName.read_goesOn (leads : start.Leads c) :
    GoesOn start (QualifiedName.read c) := by
  rw [QualifiedName.read]
  split
  · exact leads.skipWhile _
  · trivial

theorem readEquals_goesOn (leads : start.Leads c) : GoesOn start (readEquals c) :=
  (expect_goesOn leads.skipSpaces '=').bind fun _ leads => leads.skipSpaces

theorem readQuote_goesOn (leads : start.Leads c) : GoesOn start (readQuote c) := by
  rw [readQuote]
  split
  · trivial
  · split
    · exact leads.advance 1
    · trivial

theorem readPair_goesOn (leads : start.Leads c) : GoesOn start (readPair c) := by
  refine (QualifiedName.read_goesOn leads).bind fun _ leads => ?_
  refine (readEquals_goesOn leads).bind fun _ leads => ?_
  refine (readQuote_goesOn leads).bind fun (quote, _) leads => ?_
  refine (run_goesOn leads _).bind fun _ leads => ?_
  exact (expect_goesOn leads quote).bind fun _ leads => leads

theorem readAttribute_goesOn (leads : start.Leads c) : GoesOn start (readAttribute c) := by
  refine (readPair_goesOn leads).bind ?_
  rintro ⟨⟨name, raw, at_⟩, next⟩ leads
  exact returns_bind fun _ _ => leads

/-- The rest of a tag changes neither its name nor its position. -/
theorem readTagRest_goesOn (steps : Nat) (first : OpeningTag) {tag : OpeningTag}
    (same : tag.name = first.name ∧ tag.position = first.position) (leads : start.Leads c) :
    Returns (fun r => (r.1.name = first.name ∧ r.1.position = first.position) ∧ start.Leads r.2)
      (readTagRest steps tag c) := by
  induction steps generalizing tag c with
  | zero => exact ⟨same, leads⟩
  | succ steps ih =>
      rw [readTagRest]
      split
      · exact ⟨same, leads⟩
      · dsimp only
        split
        · trivial
        · exact (expect_goesOn (leads.skipSpaces.advance 1) '>').bind fun _ leads => ⟨same, leads⟩
        · exact ⟨same, leads.skipSpaces.advance 1⟩
        · split
          · trivial
          · refine (readAttribute_goesOn leads.skipSpaces).bind ?_
            rintro ⟨a, c⟩ leads
            refine returns_bind fun declared _ => ?_
            cases declared with
            | some ds => exact ih same leads
            | none => exact ih same leads

/-- A tag ends behind the `<` that it starts with, and has the position of that. -/
theorem readOpeningTag_goesOn (c : Cursor) :
    Returns (fun r => r.1.position = c.position ∧ (c.advance 1).Leads r.2) (readOpeningTag c) := by
  refine (QualifiedName.read_goesOn (.refl (c.advance 1))).bind ?_
  rintro ⟨name, next⟩ leads
  refine Returns.unless fun _ => ?_
  exact (readTagRest_goesOn _ ⟨name, c.position, [], [], .missing⟩ ⟨rfl, rfl⟩ leads).mono
    fun _ kept => ⟨kept.1.2, kept.2⟩

theorem readClosingTag_goesOn (leads : start.Leads c) : GoesOn start (readClosingTag c) := by
  refine (QualifiedName.read_goesOn (leads.advance 2)).bind fun _ leads => ?_
  exact (expect_goesOn leads.skipSpaces '>').bind fun _ leads => leads

theorem readComment_goesOn (leads : start.Leads c) : GoesOn start (readComment c) := by
  refine (run_goesOn (leads.advance 4) _).bind fun _ leads => ?_
  refine (expectText_goesOn leads "-->").bind fun _ leads => ?_
  exact Returns.unless fun _ => leads

theorem readInstruction_goesOn (leads : start.Leads c) : GoesOn start (readInstruction c) := by
  rw [readInstruction]
  refine Returns.unless fun _ => ?_
  refine (name_goesOn (leads.advance 2)).bind fun _ leads => ?_
  refine (run_goesOn leads.skipSpaces _).bind fun _ leads => ?_
  exact expectText_goesOn leads "?>"

theorem readSection_goesOn (leads : start.Leads c) : GoesOn start (readSection c) := by
  refine (run_goesOn (leads.advance 9) _).bind fun _ leads => ?_
  exact expectText_goesOn leads "]]>"

theorem readText_goesOn (leads : start.Leads c) : GoesOn start (readText c) := by
  refine (run_goesOn leads _).bind ?_
  rintro ⟨text, next⟩ leads
  exact Returns.unless fun _ => returns_bind fun _ _ => leads

/-! ## What a tag opens -/

/-- The attribute without the prefix of its name. -/
def RawAttribute.unprefixed (a : RawAttribute) : Attribute :=
  ⟨a.name.local, a.value⟩

/-- Attributes of one name are in one namespace. -/
theorem attributeNamespace_of_name {scope : List Declaration} {a b : RawAttribute}
    (same : b.name = a.name) {found : Option String}
    (resolved : attributeNamespace scope a = .ok found) :
    attributeNamespace scope b = .ok found := by
  rw [attributeNamespace, resolve] at resolved ⊢
  rw [same]
  split_ifs at resolved ⊢ with xml none
  · exact resolved
  · exact resolved
  · split at resolved
    · exact resolved
    · cases resolved

/-- No two attributes have one qualified name, and none has a name that was seen before. -/
theorem resolveAttributes_returns (scope : List Declaration) (seen : List (Option String × String))
    (raws : List RawAttribute) :
    Returns (fun attributes => attributes = raws.map RawAttribute.unprefixed ∧
        (raws.map (·.name)).Nodup ∧ ∀ a ∈ raws, ∀ found, attributeNamespace scope a = .ok found →
          (found, a.name.local) ∉ seen) (resolveAttributes scope seen raws) := by
  induction raws generalizing seen with
  | nil => exact ⟨rfl, List.nodup_nil, List.forall_mem_nil _⟩
  | cons a rest ih =>
      refine returns_bind fun found known => Returns.unless fun once => ?_
      refine (ih _).bind ?_
      rintro others ⟨rfl, distinct, fresh⟩
      refine ⟨rfl, List.nodup_cons.mpr ⟨fun again => ?_, distinct⟩, List.forall_mem_cons.mpr ⟨?_, ?_⟩⟩
      · obtain ⟨b, member, same⟩ := List.mem_map.mp again
        have new := fresh b member found (attributeNamespace_of_name same known)
        rw [same] at new
        exact new List.mem_cons_self
      · intro other known'
        obtain rfl := Except.ok.inj (known.symm.trans known')
        exact once
      · intro b member other known' there
        exact fresh b member other known' (List.mem_cons_of_mem _ there)

/-- The element is the one that the tag opens, which has no two attributes of one qualified name. -/
structure OpeningTag.Opens (tag : OpeningTag) (node : Element) : Prop where
  name : node.name = tag.name.local
  position : node.position = some tag.position
  attributes : node.attributes = tag.attributes.map RawAttribute.unprefixed
  distinct : (tag.attributes.map (·.name)).Nodup

theorem openElement_returns (scope : List Declaration) (tag : OpeningTag) :
    Returns (fun e => tag.Opens e.close ∧ e.children = []) (openElement scope tag) := by
  refine (resolveAttributes_returns _ _ _).bind ?_
  rintro attributes ⟨rfl, distinct, -⟩
  exact returns_bind fun _ _ => ⟨⟨rfl, rfl, rfl, distinct⟩, rfl⟩

/-! ## One tag behind the other -/

/-- The element without what is in it. -/
def Element.alone (e : Element) : Element :=
  { e with children := [] }

/-- The elements opened so far in an element, itself first, each without what is in it. -/
def OpenElement.begun (e : OpenElement) : List Element :=
  e.close.nodes.map .alone

theorem OpenElement.begun_eq {e : OpenElement} (empty : e.children = []) :
    e.begun = [e.close.alone] := by
  rw [begun, nodes_eq, close, empty]
  rfl

theorem nodesOfEach_append (elements others : List Element) :
    nodesOfEach (elements ++ others) = nodesOfEach elements ++ nodesOfEach others := by
  induction elements with
  | nil => rfl
  | cons e rest ih => rw [List.cons_append, nodesOfEach, nodesOfEach, ih, List.append_assoc]

theorem OpenElement.begun_add (e : OpenElement) (child : Element) :
    (e.add child).begun = e.begun ++ child.nodes.map .alone := by
  have single : nodesOfEach [child] = child.nodes := List.append_nil _
  rw [begun, begun, nodes_eq, nodes_eq, ← single]
  simp only [add, close, List.reverse_cons, nodesOfEach_append, List.map_append, List.map_cons,
    List.cons_append]
  rfl

/-- The tags that open the elements are read one behind the other. -/
inductive Trail (start : Cursor) : List Element → Cursor → Prop where
  | start : Trail start [] start
  | on {opened : List Element} {c next : Cursor} (trail : Trail start opened c)
      (leads : c.Leads next) : Trail start opened next
  | tag {opened : List Element} {rest : List Char} {p : Position} {tag : OpeningTag} {next : Cursor}
      {node : Element} (trail : Trail start opened ⟨'<' :: rest, p⟩)
      (read : readOpeningTag ⟨'<' :: rest, p⟩ = .ok (tag, next)) (opens : tag.Opens node) :
      Trail start (opened ++ [node]) next

namespace Trail

variable {opened : List Element}

/-- An element that a tag has just opened has nothing in it yet. -/
theorem opening {rest : List Char} {p : Position} {tag : OpeningTag} {e : OpenElement}
    (trail : Trail start opened ⟨'<' :: rest, p⟩)
    (read : readOpeningTag ⟨'<' :: rest, p⟩ = .ok (tag, c)) (opens : tag.Opens e.close)
    (empty : e.children = []) : Trail start (opened ++ e.begun) c := by
  rw [OpenElement.begun_eq empty]
  exact trail.tag read ⟨opens.name, opens.position, opens.attributes, opens.distinct⟩

theorem isIn (trail : Trail start opened c) (inside : start.IsIn text) : c.IsIn text := by
  induction trail with
  | start => exact inside
  | on _ leads ih => exact leads.isIn ih
  | tag _ read _ ih => exact ((readOpeningTag_goesOn _).of_ok read).2.isIn (ih.advance 1)

/-- What is carried along is that all elements so far stand in front of the reader. -/
theorem increasing (trail : Trail start opened c) :
    Increasing opened ∧ ∀ p ∈ positions opened, compare p c.position = .lt := by
  induction trail with
  | start => exact ⟨.nil, List.forall_mem_nil _⟩
  | on _ leads ih => exact ⟨ih.1, fun p before => leads.beyond (ih.2 p before)⟩
  | @tag opened rest p tag next node _ read opens ih =>
      obtain ⟨at_, leads⟩ := (readOpeningTag_goesOn _).of_ok read
      have here : positions [node] = [p] := by
        rw [positions, List.filterMap_cons, opens.position, at_]
        rfl
      have passed : compare p next.position = .lt := leads.beyond (Position.compare_next p '<')
      rw [Increasing, positions, List.filterMap_append, ← positions, ← positions, here]
      refine ⟨List.pairwise_append.mpr ⟨ih.1, List.pairwise_singleton _ _, ?_⟩, ?_⟩
      · intro q before r this
        rw [List.mem_singleton.mp this]
        exact ih.2 q before
      · intro q member
        rcases List.mem_append.mp member with before | this
        · exact Std.TransCmp.lt_trans (ih.2 q before) passed
        · rw [List.mem_singleton.mp this]
          exact passed

end Trail

/-- The tag is read where the element stands in the text, and opens it. -/
def OpeningTag.OpensIn (text : List Char) (tag : OpeningTag) (node : Element) : Prop :=
  ∃ rest next, Cursor.IsIn text ⟨'<' :: rest, tag.position⟩ ∧
    readOpeningTag ⟨'<' :: rest, tag.position⟩ = .ok (tag, next) ∧ tag.Opens node

theorem Trail.opensIn {opened : List Element} (trail : Trail start opened c)
    (inside : start.IsIn text) : ∀ node ∈ opened, ∃ tag : OpeningTag, tag.OpensIn text node := by
  induction trail with
  | start => exact List.forall_mem_nil _
  | on _ _ ih => exact ih
  | @tag opened rest p tag next node before read opens ih =>
      obtain ⟨rfl, -⟩ := (readOpeningTag_goesOn _).of_ok read
      refine List.forall_mem_append.mpr ⟨ih, List.forall_mem_singleton.mpr ?_⟩
      exact ⟨tag, rest, next, before.isIn inside, read, opens⟩

/-! ## Whole documents -/

/-- The elements opened so far: those of the outermost open element come first. -/
def begunIn (top : OpenElement) (outer : List OpenElement) : List Element :=
  (top :: outer).reverse.flatMap OpenElement.begun

theorem begunIn_cons (top parent : OpenElement) (outer : List OpenElement) :
    begunIn top (parent :: outer) = begunIn parent outer ++ top.begun := by
  simp [begunIn]

theorem begunIn_add (top : OpenElement) (outer : List OpenElement) (child : Element) :
    begunIn (top.add child) outer = begunIn top outer ++ child.nodes.map .alone := by
  cases outer with
  | nil => simp [begunIn, OpenElement.begun_add]
  | cons parent outer => rw [begunIn_cons, begunIn_cons, OpenElement.begun_add, List.append_assoc]

/-- An element that is closed was opened by a tag of its own, and the elements in it by others. -/
theorem readContent_trail {steps : Nat} {top : OpenElement} {outer : List OpenElement}
    (trail : Trail start (begunIn top outer) c) :
    Returns (fun r => Trail start (r.1.nodes.map .alone) r.2) (readContent steps top outer c) := by
  induction steps generalizing top outer c with
  | zero => trivial
  | succ steps ih =>
      have goOn {r : Except Error (Unit × Cursor)} (goesOn : GoesOn c r) :
          Returns (fun r => Trail start (r.1.nodes.map .alone) r.2)
            (r >>= fun (_, c) => readContent steps top outer c) :=
        goesOn.bind fun _ leads => ih (trail.on leads)
      -- By what comes next. The trail grows at an opening tag alone.
      rw [readContent]
      split
      · trivial
      · trivial
      · split
        · exact goOn (readComment_goesOn (.refl c))
        · split
          · exact goOn (readSection_goesOn (.refl c))
          · trivial
      · exact goOn (readInstruction_goesOn (.refl c))
      · refine (readClosingTag_goesOn (.refl c)).bind ?_
        rintro ⟨name, next⟩ leads
        refine Returns.unless fun _ => ?_
        split
        · have all : begunIn top [] = top.close.nodes.map .alone := List.append_nil _
          rw [all] at trail
          exact trail.on leads
        · rename_i parent outer
          refine ih (Trail.on ?_ leads)
          rw [begunIn_add]
          rwa [begunIn_cons] at trail
      · rename_i rest _ _ _ _ begins
        obtain ⟨_, p⟩ := c
        obtain rfl : _ = '<' :: rest := begins
        refine returns_bind ?_
        rintro ⟨tag, next⟩ read
        dsimp only
        split
        · trivial
        · refine (openElement_returns _ tag).bind fun e ⟨opens, empty⟩ => ih ?_
          rw [begunIn_add]
          exact trail.opening read opens empty
        · refine (openElement_returns _ tag).bind fun e ⟨opens, empty⟩ => ih ?_
          rw [begunIn_cons]
          exact trail.opening read opens empty
      · exact goOn (readText_goesOn (.refl c))

theorem readRoot_trail (rest : List Char) (p : Position) :
    Returns (fun r => ∀ root ∈ r.1, Trail ⟨'<' :: rest, p⟩ (root.nodes.map .alone) r.2)
      (readRoot ⟨'<' :: rest, p⟩) := by
  refine returns_bind ?_
  rintro ⟨tag, next⟩ read
  dsimp only
  split
  · exact fun root none => by cases none
  · refine (openElement_returns _ tag).bind fun e ⟨opens, empty⟩ root this => ?_
    obtain rfl := Option.some.inj this
    exact Trail.start.opening read opens empty
  · refine (openElement_returns _ tag).bind fun e ⟨opens, empty⟩ => ?_
    have trail : Trail ⟨'<' :: rest, p⟩ (begunIn e []) next := by
      rw [begunIn, List.reverse_singleton, List.flatMap_singleton]
      exact Trail.start.opening read opens empty
    refine (readContent_trail trail).bind ?_
    rintro ⟨root, c⟩ trail root' this
    obtain rfl := Option.some.inj this
    exact trail

/-- The element was read where a trail of tags through the text begins. -/
def Trails (text : List Char) (root : Element) : Prop :=
  ∃ start last, start.IsIn text ∧ Trail start (root.nodes.map .alone) last

theorem readRoot_trails {rest : List Char} {p : Position}
    (inside : Cursor.IsIn text ⟨'<' :: rest, p⟩) :
    Reads text (Stays text fun found => ∀ root ∈ found, Trails text root)
      (readRoot ⟨'<' :: rest, p⟩) := by
  refine ((readRoot_reads inside).and (readRoot_trail rest p)).mono ?_
  rintro ⟨found, last⟩ ⟨⟨-, inside'⟩, trail⟩
  exact ⟨fun root this => ⟨_, last, inside, trail root this⟩, inside'⟩

variable {source : String} {root : Element}

theorem trails_of_parse (parsed : parse source = .ok root) : Trails source.toList root := by
  have reads := parse_reads source (by simp) readRoot_trails
  rw [parsed] at reads
  exact reads root rfl

theorem positions_map_alone (nodes : List Element) :
    positions (nodes.map .alone) = positions nodes :=
  List.filterMap_map

/-- However a document is spelled, its elements stand one behind the other in document order. -/
theorem increasing_of_parse (parsed : parse source = .ok root) : Increasing root.nodes := by
  obtain ⟨start, last, -, trail⟩ := trails_of_parse parsed
  have increasing := trail.increasing.1
  rwa [Increasing, positions_map_alone] at increasing

/-- Each element of a document is opened by a tag of its text. -/
theorem opensIn_of_parse (parsed : parse source = .ok root) {node : Element}
    (member : node ∈ root.nodes) : ∃ tag : OpeningTag, tag.OpensIn source.toList node := by
  obtain ⟨start, last, inside, trail⟩ := trails_of_parse parsed
  obtain ⟨tag, rest, next, placed, read, opens⟩ :=
    trail.opensIn inside node.alone (List.mem_map_of_mem member)
  exact ⟨tag, rest, next, placed, read, opens.name, opens.position, opens.attributes,
    opens.distinct⟩

end SourceLint.Markup
