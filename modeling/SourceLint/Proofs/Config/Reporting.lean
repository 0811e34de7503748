import SourceLint.Proofs.Config.Loading
import SourceLint.Proofs.Config.Origins
import SourceLint.Proofs.Config.Respelling

/-! # What a load says about its document

A load ends at one of five exits, and its outcome tells at which. A document that cannot be read, is
malformed or does not fit the schema leaves the defaults and one diagnostic; one that is bound has
its issues, and a diagnostic for each of them; nothing is said about a document that is absent or
blank. Every diagnostic stands where the document is at fault.
-/

namespace SourceLint

open Markup (Element)

namespace Text

theorem trim_eq_empty_iff {s : String} : trim s = "" ↔ isBlankText s = true := by
  have empty : trim s = "" ↔ trimChars s.toList = [] := by
    rw [trim, ← String.toList_inj, String.toList_ofList]
    rfl
  rw [empty, isBlankText, List.all_eq_true]
  constructor
  · intro trimmed
    obtain ⟨before, after, first, last, split⟩ := exists_trimChars s.toList
    rw [trimmed, List.append_nil] at split
    rw [split]
    exact List.forall_mem_append.mpr ⟨first, last⟩
  · intro blank
    rw [trimChars, List.dropWhile_eq_nil_iff.mpr blank]
    rfl

end Text

/-! ## The exits -/

/-- Where a load of the document ends, and with what outcome. -/
inductive Document.Exits (read : Path → Except ReadError String) :
    Document → LoadOutcome → Prop where
  | absent : Exits read .absent {}
  | blank {d : Document} {path : Path} {content : String} (holds : d.Holds read path content)
      (blank : Text.isBlankText content = true) : Exits read d { path := some path }
  | unreadable {path : Path} {e : ReadError} (failed : read path = .error e) :
      Exits read (.file path) (.failed path (.unreadable path e))
  | malformed {d : Document} {path : Path} {content : String} {e : Markup.Error}
      (holds : d.Holds read path content) (written : Text.isBlankText content = false)
      (failed : Markup.parse content = .error e) :
      Exits read d (.failed path (.malformed e))
  | mismatch {d : Document} {path : Path} {content : String} {root : Element} {e : Binding.Error}
      (holds : d.Holds read path content) (written : Text.isBlankText content = false)
      (parsed : Markup.parse content = .ok root) (failed : Config.bind root = .error e) :
      Exits read d (.failed path (.mismatch e))
  | bound {d : Document} {path : Path} {content : String} {root : Element} {config : Config}
      (holds : d.Holds read path content) (written : Text.isBlankText content = false)
      (parsed : Markup.parse content = .ok root) (bound : Config.bind root = .ok config) :
      Exits read d { config, path := some path, issues := config.validate }

variable {read : Path → Except ReadError String} {d : Document} {path : Path} {content : String}

theorem Document.Holds.exits (holds : d.Holds read path content) :
    d.Exits read (.ofText path content) := by
  rw [LoadOutcome.ofText]
  split
  · rename_i blank
    exact .blank holds blank
  · rename_i written
    rw [Bool.not_eq_true] at written
    split
    · rename_i e failed
      exact .malformed holds written failed
    · rename_i root parsed
      split
      · rename_i e failed
        exact .mismatch holds written parsed failed
      · rename_i config bound
        exact .bound holds written parsed bound

theorem Document.exits_load (read : Path → Except ReadError String) (d : Document) :
    d.Exits read (d.load read) := by
  cases d with
  | absent => exact .absent
  | text path content => exact Document.Holds.exits (.inl rfl)
  | file path =>
      rw [Document.load]
      split
      · rename_i e failed
        exact .unreadable failed
      · rename_i content there
        exact Document.Holds.exits (.inr ⟨rfl, there⟩)

/-- There is one exit for each document. -/
theorem Document.exits_iff {o : LoadOutcome} : d.Exits read o ↔ o = d.load read := by
  constructor
  · intro exits
    cases exits with
    | absent => rfl
    | blank holds blank => rw [holds.load_eq, LoadOutcome.ofText, if_pos blank]
    | unreadable failed => rw [load, failed]
    | malformed holds written failed =>
        rw [holds.load_eq, LoadOutcome.ofText, if_neg (by simp [written]), failed]
    | mismatch holds written parsed failed =>
        rw [holds.load_eq, LoadOutcome.ofText, if_neg (by simp [written]), parsed]
        dsimp only
        rw [failed]
    | bound holds written parsed bound =>
        rw [holds.load_eq, LoadOutcome.ofText, if_neg (by simp [written]), parsed]
        dsimp only
        rw [bound]
  · rintro rfl
    exact exits_load read d

theorem Document.Holds.path?_eq (holds : d.Holds read path content) : d.path? = some path := by
  rcases holds with rfl | ⟨rfl, _⟩ <;> rfl

theorem Document.Exits.path_eq {o : LoadOutcome} (exits : d.Exits read o) : o.path = d.path? := by
  cases exits with
  | absent => rfl
  | unreadable => rfl
  | blank holds | malformed holds | mismatch holds | bound holds => exact holds.path?_eq.symm

/-! ## Places -/

/-- The diagnostic counts from zero what the position counts from one. -/
def Diagnostic.IsAt (x : Diagnostic) (p : Position) : Prop :=
  p = ⟨x.line + 1, x.column + 1⟩

/-- The two are in the order of their lines, and on one line in that of their columns. -/
def Diagnostic.Precedes (x y : Diagnostic) : Prop :=
  x.line < y.line ∨ x.line = y.line ∧ x.column ≤ y.column

theorem Diagnostic.isAt_ofConfig {p : Position} (positive : 0 < p.line ∧ 0 < p.column) (path : Path)
    (message : String) : (ofConfig (some path) (some p) message).IsAt p := by
  obtain ⟨line, column⟩ := p
  simp only [IsAt, ofConfig, Place.ofPosition, Position.mk.injEq] at positive ⊢
  omega

namespace Position

theorem le_iff {p q : Position} :
    p.le q = true ↔ p.line < q.line ∨ p.line = q.line ∧ p.column ≤ q.column := by
  have split : compare p q = (compare p.line q.line).then (compare p.column q.column) := rfl
  rw [le, split, Ordering.isLE_then_iff_or, Nat.isLE_compare, Nat.compare_eq_lt,
    Nat.compare_eq_eq]

theorem le_trans (p q r : Position) (first : p.le q) (second : q.le r) : p.le r := by
  rw [le_iff] at first second ⊢
  omega

theorem le_total (p q : Position) : p.le q || q.le p := by
  rw [Bool.or_eq_true, le_iff, le_iff]
  omega

end Position

theorem Diagnostic.message_ofConfig (path : Option Path) (at_ : Option Position)
    (message : String) : (ofConfig path at_ message).message = message := by
  rw [ofConfig]
  split <;> rfl

/-- Where they are at the positions, diagnostics are in the order of these. -/
theorem Diagnostic.IsAt.precedes {x y : Diagnostic} {p q : Position} (first : x.IsAt p)
    (second : y.IsAt q) (ordered : p.le q = true) : x.Precedes y := by
  subst first second
  simp only [Position.le_iff] at ordered
  unfold Diagnostic.Precedes
  omega

theorem Config.pairwise_validate (c : Config) :
    c.validate.Pairwise fun i j => i.position.le j.position :=
  List.pairwise_mergeSort (fun i j k => Position.le_trans i.position j.position k.position)
    (fun i j => Position.le_total i.position j.position) c.issues

/-! ## Faults of a text -/

/-- The element stands at the position, a place of the text where it opens. -/
structure Markup.Element.StandsAt (content : String) (node : Element) (p : Position) : Prop where
  position : node.position = some p
  opens : ∃ name, node.name = name.local ∧ Markup.Opens content.toList name p

theorem Markup.Element.StandsAt.isIn {node : Element} {p : Position}
    (stands : node.StandsAt content p) : p.IsIn content.toList := by
  obtain ⟨_, _, _, opens⟩ := stands
  exact opens.position

theorem Markup.exists_standsAt {root node : Element} (parsed : parse content = .ok root)
    (member : node ∈ root.nodes) : ∃ p, node.StandsAt content p := by
  obtain ⟨name, p, named, at_, opens⟩ := startsIn_of_parse parsed node member
  exact ⟨p, at_, name, named, opens⟩

theorem exists_standsAt_of_bind {root : Element} {e : Binding.Error}
    (parsed : Markup.parse content = .ok root) (failed : Config.bind root = .error e) :
    ∃ node ∈ root.nodes, e.IsAbout node ∧ ∃ p, node.StandsAt content p ∧ e.position? = some p := by
  obtain ⟨node, member, about, at_⟩ := Config.isAbout_of_bind failed
  obtain ⟨p, stands⟩ := Markup.exists_standsAt parsed member
  exact ⟨node, member, about, p, stands, at_.trans stands.position⟩

theorem exists_standsAt_of_issue {root : Element} {config : Config} {i : Issue}
    (parsed : Markup.parse content = .ok root) (bound : Config.bind root = .ok config)
    (raised : i ∈ config.validate) :
    ∃ node ∈ root.nodes, i.IsAbout node ∧ node.StandsAt content i.position := by
  obtain ⟨node, member, about⟩ :=
    (Config.tells_of_bind bound).exists_isAbout (List.mem_mergeSort.mp raised)
  obtain ⟨p, stands⟩ := Markup.exists_standsAt parsed member
  have at_ : i.position = p := by rw [about.position, stands.position, Option.getD_some]
  exact ⟨node, member, about, at_ ▸ stands⟩

/-! ## Diagnostics -/

namespace LoadOutcome

variable {o : LoadOutcome}

theorem diagnostics_failed (path : Path) (f : LoadFailure) :
    (failed path f).diagnostics = [.ofConfig (some path) f.position? f.message] :=
  rfl

theorem diagnostics_eq_nil_iff : o.diagnostics = [] ↔ o.isClean = true := by
  rw [diagnostics, isClean]
  cases o.failure <;> simp

theorem length_diagnostics (o : LoadOutcome) :
    o.diagnostics.length = if o.failure.isSome then 1 else o.issues.length := by
  rw [diagnostics]
  cases o.failure <;> simp

/-- Whatever is said about a document with a path is an error in that document. -/
theorem isError_of_mem_diagnostics (named : o.path = some path) :
    ∀ x ∈ o.diagnostics, x.path = some path ∧ x.code = configCode ∧ x.severity = .error := by
  have each (at_ : Option Position) (message : String) :
      let x := Diagnostic.ofConfig (some path) at_ message
      x.path = some path ∧ x.code = configCode ∧ x.severity = .error := by
    cases at_ <;> exact ⟨rfl, rfl, rfl⟩
  intro x member
  rw [diagnostics, named] at member
  split at member
  · rw [List.mem_singleton.mp member]
    exact each _ _
  · obtain ⟨i, _, rfl⟩ := List.mem_map.mp member
    exact each _ _

end LoadOutcome

/-! ## The account -/

/-- What a load of a document comes to, and what is said about it. -/
structure Document.Account (read : Path → Except ReadError String) (d : Document)
    (o : LoadOutcome) : Prop where
  /-- The outcome is that of the one exit where the load of the document can end. -/
  exits : ∀ other, d.Exits read other ↔ other = o
  path : o.path = d.path?
  failed : o.failure ≠ none → o.config = {} ∧ o.issues = []
  loaded : o.failure = none → o.issues = o.config.validate
  /-- A document that is absent or blank is no failure. -/
  nothing : d = .absent ∨ (∃ path content, d.Holds read path content ∧ Text.trim content = "") →
    o = { path := d.path? } ∧ o.isClean = true
  number : o.diagnostics.length = if o.failure.isSome then 1 else o.issues.length
  silent : o.diagnostics = [] ↔ o.isClean = true
  each : ∀ x ∈ o.diagnostics, x.path = d.path? ∧ x.code = "PL000" ∧ x.severity = .error
  ordered : o.diagnostics.Pairwise Diagnostic.Precedes
  unreadable : ∀ path e, o.failure = some (.unreadable path e) →
    ∃ x, o.diagnostics = [x] ∧ x.line = 0 ∧ x.column = 0
  /-- A malformed document is at fault where it is parsed no further. -/
  malformed : ∀ e, o.failure = some (.malformed e) →
    ∃ path content x, d.Holds read path content ∧ Markup.parse content = .error e ∧
      o.diagnostics = [x] ∧ x.message = e.message ∧ x.IsAt e.position ∧
      e.position.IsIn content.toList
  /-- A mismatch is one of an element, and stands where that opens. -/
  mismatch : ∀ e, o.failure = some (.mismatch e) →
    ∃ path content root x, d.Holds read path content ∧ Markup.parse content = .ok root ∧
      o.diagnostics = [x] ∧ x.message = e.message ∧
      ∃ node ∈ root.nodes, e.IsAbout node ∧ ∃ p, node.StandsAt content p ∧ x.IsAt p
  /-- So does each issue. -/
  issues : o.failure = none → List.Forall₂ (fun i x => x.message = i.message ∧
      ∃ path content root, d.Holds read path content ∧ Markup.parse content = .ok root ∧
        ∃ node ∈ root.nodes, i.IsAbout node ∧ node.StandsAt content i.position ∧
          x.IsAt i.position) o.issues o.diagnostics

namespace Document

theorem nothing_of_blank (blank : d = .absent ∨
    ∃ path content, d.Holds read path content ∧ Text.trim content = "") :
    d.load read = { path := d.path? } := by
  rcases blank with rfl | ⟨path, content, holds, blank⟩
  · rfl
  · rw [holds.load_eq, holds.path?_eq, LoadOutcome.ofText,
      if_pos (Text.trim_eq_empty_iff.mp blank)]

namespace Exits

variable {o : LoadOutcome} (exits : d.Exits read o)

include exits

theorem failed (failure : o.failure ≠ none) : o.config = {} ∧ o.issues = [] := by
  cases exits with
  | absent | blank | bound => exact absurd rfl failure
  | unreadable | malformed | mismatch => exact ⟨rfl, rfl⟩

theorem loaded (fine : o.failure = none) : o.issues = o.config.validate := by
  cases exits with
  | absent | blank => exact Config.validate_default.symm
  | bound => rfl
  | unreadable | malformed | mismatch => cases fine

theorem unreadable_places {at_ : Path} {e : ReadError}
    (failure : o.failure = some (.unreadable at_ e)) :
    ∃ x, o.diagnostics = [x] ∧ x.line = 0 ∧ x.column = 0 := by
  cases exits with
  | unreadable => exact ⟨_, rfl, rfl, rfl⟩
  | absent | blank | malformed | mismatch | bound => cases failure

theorem malformed_places {e : Markup.Error} (failure : o.failure = some (.malformed e)) :
    ∃ path content x, d.Holds read path content ∧ Markup.parse content = .error e ∧
      o.diagnostics = [x] ∧ x.message = e.message ∧ x.IsAt e.position ∧
      e.position.IsIn content.toList := by
  cases exits with
  | @malformed d path content e' holds _ malformed =>
      obtain rfl : e' = e := by simpa [LoadOutcome.failed] using failure
      have inside := Markup.position_of_parse malformed
      exact ⟨path, content, _, holds, malformed, rfl, rfl,
        Diagnostic.isAt_ofConfig inside.pos _ _, inside⟩
  | absent | blank | unreadable | mismatch | bound => cases failure

theorem mismatch_places {e : Binding.Error} (failure : o.failure = some (.mismatch e)) :
    ∃ path content root x, d.Holds read path content ∧ Markup.parse content = .ok root ∧
      o.diagnostics = [x] ∧ x.message = e.message ∧
      ∃ node ∈ root.nodes, e.IsAbout node ∧ ∃ p, node.StandsAt content p ∧ x.IsAt p := by
  cases exits with
  | @mismatch d path content root e' holds _ parsed mismatched =>
      obtain rfl : e' = e := by simpa [LoadOutcome.failed] using failure
      obtain ⟨node, member, about, p, stands, at_⟩ := exists_standsAt_of_bind parsed mismatched
      refine ⟨path, content, root, _, holds, parsed, rfl, Diagnostic.message_ofConfig _ _ _, node,
        member, about, p, stands, ?_⟩
      rw [LoadFailure.position?, at_]
      exact Diagnostic.isAt_ofConfig stands.isIn.pos path e'.message
  | absent | blank | unreadable | malformed | bound => cases failure

theorem issues_place (fine : o.failure = none) : List.Forall₂ (fun i x => x.message = i.message ∧
    ∃ path content root, d.Holds read path content ∧ Markup.parse content = .ok root ∧
      ∃ node ∈ root.nodes, i.IsAbout node ∧ node.StandsAt content i.position ∧
        x.IsAt i.position) o.issues o.diagnostics := by
  cases exits with
  | absent | blank => exact .nil
  | @bound d path content root config holds _ parsed bound =>
      refine List.forall₂_map_right_iff.mpr (List.forall₂_same.mpr fun i raised => ⟨rfl, ?_⟩)
      obtain ⟨node, member, about, stands⟩ := exists_standsAt_of_issue parsed bound raised
      exact ⟨path, content, root, holds, parsed, node, member, about, stands,
        Diagnostic.isAt_ofConfig stands.isIn.pos path i.message⟩
  | unreadable | malformed | mismatch => cases fine

theorem ordered : o.diagnostics.Pairwise Diagnostic.Precedes := by
  cases exits with
  | absent | blank => exact .nil
  | unreadable | malformed | mismatch => exact List.pairwise_singleton _ _
  | @bound d path content root config holds _ parsed bound =>
      refine List.pairwise_map.mpr (config.pairwise_validate.imp_of_mem ?_)
      intro i j first second before
      have at_ {k : Issue} (raised : k ∈ config.validate) :
          (Diagnostic.ofConfig (some path) (some k.position) k.message).IsAt k.position := by
        obtain ⟨node, _, _, stands⟩ := exists_standsAt_of_issue parsed bound raised
        exact Diagnostic.isAt_ofConfig stands.isIn.pos path k.message
      exact (at_ first).precedes (at_ second) before

end Exits

theorem each_of_load : ∀ x ∈ (d.load read).diagnostics,
    x.path = d.path? ∧ x.code = configCode ∧ x.severity = .error := by
  have named := (d.exits_load read).path_eq
  cases at_ : d.path? with
  | some path => exact LoadOutcome.isError_of_mem_diagnostics (named.trans at_)
  | none =>
      cases d with
      | absent => exact List.forall_mem_nil _
      | text | file => cases at_

/-- Whatever the document is and whatever reading it gives, the load accounts for it. -/
theorem load_accounts (read : Path → Except ReadError String) (d : Document) :
    d.Account read (d.load read) where
  exits _ := exits_iff
  path := (d.exits_load read).path_eq
  failed := (d.exits_load read).failed
  loaded := (d.exits_load read).loaded
  nothing blank := by
    rw [nothing_of_blank blank]
    exact ⟨rfl, rfl⟩
  number := LoadOutcome.length_diagnostics _
  silent := LoadOutcome.diagnostics_eq_nil_iff
  each := each_of_load
  ordered := (d.exits_load read).ordered
  unreadable _ _ := (d.exits_load read).unreadable_places
  malformed _ := (d.exits_load read).malformed_places
  mismatch _ := (d.exits_load read).mismatch_places
  issues := (d.exits_load read).issues_place

end Document

end SourceLint
