import SourceLint.Proofs.Source.Words
import SourceLint.Rule.UnusedFunction

/-! # What files mention

Whatever a file adds to the bank names a word of its text, at the place where that word
stands. So a place in a file is never mentioned under two names.
-/

namespace SourceLint

open Source

/-- All that is mentioned. -/
def Facts.mentions (f : Facts) : List Mention :=
  f.symbols ++ (f.invocations ++ f.references)

namespace UnusedFunction

variable {W : Name → Prop}

/-- The facts mention words of which `W` holds, where they stand in the file. -/
def Mentions (W : Name → Prop) (file : Path) (f : Facts) : Prop :=
  ∀ m ∈ f.mentions, ∃ name : Word W,
    m = ⟨name.text, ⟨file, name.position.line, name.position.column⟩⟩

theorem mentions_nothing (file : Path) : Mentions W file {} := by
  intro m member
  cases member

theorem Mentions.append {file : Path} {f g : Facts} (first : Mentions W file f)
    (second : Mentions W file g) : Mentions W file (f ++ g) := by
  intro m member
  have either : m ∈ f.mentions ∨ m ∈ g.mentions := by
    change m ∈ (f.append g).mentions at member
    simp only [Facts.append, Facts.mentions, List.mem_append] at member ⊢
    grind
  exact either.elim (first m) (second m)

theorem mentions_reference (s : Scope) (name : Word W) : Mentions W s.file (s.reference name) := by
  intro m member
  exact ⟨name, by simpa [Scope.reference, Scope.mention, Facts.mentions] using member⟩

theorem mentions_invocation (s : Scope) (name : Word W) :
    Mentions W s.file (s.invocation name) := by
  intro m member
  exact ⟨name, by simpa [Scope.invocation, Scope.mention, Facts.mentions] using member⟩

theorem mentions_definition (s : Scope) (name : Word W) (visible : Bool) :
    Mentions W s.file (s.definition name visible) := by
  unfold Scope.definition
  split
  · exact mentions_nothing s.file
  · intro m member
    exact ⟨name, by simpa [Scope.mention, Facts.mentions] using member⟩

theorem mentions_ofKind (s : Scope) (kind : ItemKind W) : Mentions W s.file (s.ofKind kind) := by
  cases kind with
  | function name visible => exact mentions_definition s name visible
  | method name visible =>
      rw [Scope.ofKind]
      split
      · exact mentions_nothing s.file
      · exact mentions_definition s name visible
  | _ => exact mentions_nothing s.file

theorem inside_file (s : Scope) (kind : ItemKind W) : (s.inside kind).file = s.file := by
  cases kind <;> rfl

mutual

theorem mentions_facts (s : Scope) : (node : Node W) → Mentions W s.file (facts s node)
  | .path name parts => by
      rw [facts]
      exact (mentions_reference s name).append (mentions_factsOfAll s parts)
  | .call attributes callee arguments => by
      have called := mentions_facts s callee
      have given := mentions_factsOfAll s arguments
      cases callee with
      | path name parts =>
          rw [facts]
          exact (mentions_invocation s name).append given
      | _ =>
          rw [facts]
          · exact ((mentions_factsOfAll s attributes).append called).append given
          · exact nofun
  | .methodCall name parts => by
      rw [facts]
      exact (mentions_invocation s name).append (mentions_factsOfAll s parts)
  | .imported name => by
      rw [facts]
      exact mentions_reference s name
  | .operation first parts => by
      rw [facts]
      exact (mentions_facts s first).append (mentions_factsOfAll s parts)
  | .item kind attributes parts => by
      rw [facts]
      split
      · exact mentions_nothing s.file
      · have within := mentions_factsOfAll (s.inside kind) parts
        rw [inside_file] at within
        exact (mentions_ofKind s kind).append within
  | .group parts => by
      rw [facts]
      exact mentions_factsOfAll s parts
  | .unread => by
      rw [facts]
      exact mentions_nothing s.file

theorem mentions_factsOfAll (s : Scope) :
    (nodes : List (Node W)) → Mentions W s.file (factsOfAll s nodes)
  | [] => by
      rw [factsOfAll]
      exact mentions_nothing s.file
  | node :: rest => by
      rw [factsOfAll]
      exact (mentions_facts s node).append (mentions_factsOfAll s rest)

end

theorem mentions_factsOfFile (config : Config) (file : SourceFile) (tree : Tree W) :
    Mentions W file.path (factsOfFile config file tree) := by
  unfold factsOfFile
  split
  · exact mentions_nothing file.path
  · exact mentions_factsOfAll ⟨file.path, config.includesPublic, false⟩ _

/-- A place in a text is mentioned under one name. -/
theorem Mentions.name_eq {cs : List Char} {file other : Path} {f g : Facts}
    (first : Mentions (IsWordOf cs) file f) (second : Mentions (IsWordOf cs) other g)
    {m n : Mention} (inF : m ∈ f.mentions) (inG : n ∈ g.mentions)
    (line : m.location.line = n.location.line) (column : m.location.column = n.location.column) :
    m.name = n.name := by
  obtain ⟨name, rfl⟩ := first m inF
  obtain ⟨name', rfl⟩ := second n inG
  have same : name.position = name'.position := by
    cases here : name.position
    cases there : name'.position
    simp only [here, there] at line column
    rw [line, column]
  exact congrArg Name.text (name.holds.eq_of_position_eq name'.holds same)

end UnusedFunction

end SourceLint
