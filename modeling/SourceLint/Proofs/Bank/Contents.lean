import Std.Data.TreeSet.Lemmas
import SourceLint.Rule.UnusedFunction

/-! # What is in the bank

What the bank holds depends on what has been added and not on the order: a definition is
in it when one that compares equal has been added, and a name is used when a call or a
reference of that name has. Only which of several equal spellings stays is left to the
order.
-/

namespace SourceLint

/-! ## Comparing by components -/

namespace Path

instance : Std.TransOrd Component :=
  inferInstanceAs (Std.TransCmp (compareLex (compareOn Component.rank) (compareOn Component.name)))

instance : Std.LawfulEqOrd Component where
  eq_of_compare {a b} same := by
    have parts := Ordering.then_eq_eq.mp same
    have rank : a.rank = b.rank := Std.LawfulEqOrd.eq_of_compare parts.1
    have name : a.name = b.name := Std.LawfulEqOrd.eq_of_compare parts.2
    cases a <;> cases b <;> simp_all [Component.rank, Component.name]

instance : Std.TransOrd Path :=
  inferInstanceAs (Std.TransCmp (compareOn components))

theorem compare_eq_iff {p q : Path} : compare p q = .eq ↔ p.components = q.components := by
  change compare p.components q.components = .eq ↔ _
  exact Std.compare_eq_iff_eq

end Path

instance : Std.TransOrd Location :=
  inferInstanceAs (Std.TransCmp
    (compareLex (compareOn Location.file)
      (compareLex (compareOn Location.line) (compareOn Location.column))))

instance : Std.TransOrd Mention :=
  inferInstanceAs (Std.TransCmp
    (compareLex (compareOn Mention.name) (compareOn Mention.location)))

/-- What places are compared by. -/
def Location.key (l : Location) : List Path.Component × Nat × Nat :=
  (l.file.components, l.line, l.column)

/-- What mentions are compared by. -/
def Mention.key (m : Mention) : String × List Path.Component × Nat × Nat :=
  (m.name, m.location.key)

theorem Location.compare_eq_iff {a b : Location} : compare a b = .eq ↔ a.key = b.key := by
  change (compare a.file b.file).then ((compare a.line b.line).then (compare a.column b.column)) =
    .eq ↔ _
  rw [Ordering.then_eq_eq, Ordering.then_eq_eq, Path.compare_eq_iff, Std.compare_eq_iff_eq,
    Std.compare_eq_iff_eq]
  simp only [key, Prod.mk.injEq]

theorem Mention.compare_eq_iff {m n : Mention} : compare m n = .eq ↔ m.key = n.key := by
  change (compare m.name n.name).then (compare m.location n.location) = .eq ↔ _
  rw [Ordering.then_eq_eq, Location.compare_eq_iff, Std.compare_eq_iff_eq]
  simp only [key, Prod.mk.injEq]

/-! ## Sets of mentions -/

section Sets

variable {t : Std.TreeSet Mention compare} {m k : Mention}

theorem mem_toList_iff_get? : m ∈ t.toList ↔ t.get? m = some m := by
  change m ∈ t.inner.keys ↔ t.inner.getKey? m = some m
  rw [← Std.TreeMap.map_fst_toList_eq_keys]
  constructor
  · intro member
    obtain ⟨⟨_, _⟩, there, rfl⟩ := List.mem_map.mp member
    exact (Std.TreeMap.mem_toList_iff_getKey?_eq_some_and_getElem?_eq_some.mp there).1
  · intro got
    have inside : m ∈ t.inner := Std.TreeMap.mem_of_getKey?_eq_some got
    obtain ⟨value, there⟩ :=
      Option.isSome_iff_exists.mp (Std.TreeMap.mem_iff_isSome_getElem?.mp inside)
    exact List.mem_map.mpr
      ⟨(m, value), Std.TreeMap.mem_toList_iff_getKey?_eq_some_and_getElem?_eq_some.mpr ⟨got, there⟩,
        rfl⟩

/-- A mention is in the set when one that compares equal is listed. -/
theorem mem_iff_exists_mem_toList : m ∈ t ↔ ∃ k ∈ t.toList, k.key = m.key := by
  constructor
  · intro member
    have same := Std.TreeSet.compare_get_self member
    refine ⟨t.get m member, mem_toList_iff_get?.mpr ?_, Mention.compare_eq_iff.mp same⟩
    rw [Std.TreeSet.get?_congr same, Std.TreeSet.get?_eq_some_get]
  · rintro ⟨k, listed, same⟩
    exact (Std.TreeSet.mem_congr (Mention.compare_eq_iff.mpr same)).mp
      (Std.TreeSet.mem_of_mem_toList listed)

theorem mem_foldl_insert {batch : List Mention} :
    m ∈ batch.foldl (·.insert ·) t ↔ m ∈ t ∨ ∃ k ∈ batch, k.key = m.key := by
  induction batch generalizing t with
  | nil => simp
  | cons k rest ih =>
      rw [List.foldl_cons, ih, Std.TreeSet.mem_insert, Mention.compare_eq_iff]
      grind

/-- What is listed has been put in as it is. -/
theorem mem_toList_foldl_insert {batch : List Mention}
    (listed : m ∈ (batch.foldl (·.insert ·) t).toList) : m ∈ t.toList ∨ m ∈ batch := by
  induction batch generalizing t with
  | nil => exact .inl listed
  | cons k rest ih =>
      rcases ih listed with before | later
      · rw [mem_toList_iff_get?, Std.TreeSet.get?_insert] at before
        split at before
        · cases before
          exact .inr List.mem_cons_self
        · exact .inl (mem_toList_iff_get?.mpr before)
      · exact .inr (List.mem_cons_of_mem _ later)

end Sets

/-! ## Batches -/

/-- What is written to the bank at once. -/
inductive Batch where
  | symbols (mentions : List Mention)
  | invocations (mentions : List Mention)
  | references (mentions : List Mention)
  deriving Repr, DecidableEq

/-- The batches of facts, in the order in which a rule writes them. -/
def Facts.batches (f : Facts) : List Batch :=
  [.symbols f.symbols, .invocations f.invocations, .references f.references]

/-- What a batch defines. -/
def Batch.defined : Batch → List Mention
  | symbols mentions => mentions
  | _ => []

/-- What a batch uses. -/
def Batch.used : Batch → List Mention
  | symbols _ => []
  | invocations mentions | references mentions => mentions

namespace Bank

open UnusedFunction (isUsed)

/-- The bank with one more batch. -/
def post (b : Bank) : Batch → Bank
  | .symbols mentions => b.addSymbols mentions
  | .invocations mentions => b.addInvocations mentions
  | .references mentions => b.addReferences mentions

theorem add_eq (b : Bank) (f : Facts) : b.add f = f.batches.foldl post b :=
  rfl

/-- The bank holds these definitions, each in one spelling, and these names are used. -/
structure Holds (b : Bank) (defined : Mention → Prop) (used : String → Prop) : Prop where
  sound : ∀ m ∈ b.symbols.toList, defined m
  complete : ∀ m, defined m → m ∈ b.symbols
  used_iff : ∀ name, isUsed b name = true ↔ used name

variable {b : Bank} {defined : Mention → Prop} {used : String → Prop}

theorem Holds.congr (holds : b.Holds defined used) {defined' : Mention → Prop}
    {used' : String → Prop} (same : ∀ m, defined m ↔ defined' m)
    (same' : ∀ name, used name ↔ used' name) : b.Holds defined' used' where
  sound m member := (same m).mp (holds.sound m member)
  complete m is := holds.complete m ((same m).mpr is)
  used_iff name := (holds.used_iff name).trans (same' name)

theorem isUsed_iff (b : Bank) (name : String) : isUsed b name = true ↔
    (∃ m ∈ b.invocations, m.name = name) ∨ ∃ m ∈ b.references.toList, m.name = name := by
  simp only [isUsed, Bool.or_eq_true, Array.any_eq_true', List.any_eq_true, decide_eq_true_eq]

theorem exists_mem_references_iff {batch : List Mention} (name : String) :
    (∃ m ∈ (b.addReferences batch).references.toList, m.name = name) ↔
      (∃ m ∈ b.references.toList, m.name = name) ∨ ∃ m ∈ batch, m.name = name := by
  constructor
  · rintro ⟨m, listed, rfl⟩
    rcases mem_toList_foldl_insert listed with before | new
    · exact .inl ⟨m, before, rfl⟩
    · exact .inr ⟨m, new, rfl⟩
  · intro either
    have inside : ∃ m ∈ (b.addReferences batch).references, m.name = name := by
      rcases either with ⟨m, before, rfl⟩ | ⟨m, new, rfl⟩
      · exact ⟨m, mem_foldl_insert.mpr (.inl (Std.TreeSet.mem_of_mem_toList before)), rfl⟩
      · exact ⟨m, mem_foldl_insert.mpr (.inr ⟨m, new, rfl⟩), rfl⟩
    obtain ⟨m, member, rfl⟩ := inside
    obtain ⟨k, listed, same⟩ := mem_iff_exists_mem_toList.mp member
    exact ⟨k, listed, congrArg Prod.fst same⟩

theorem holds_empty : (({} : Bank)).Holds (fun _ => False) fun _ => False where
  sound _ listed := absurd (Std.TreeSet.mem_of_mem_toList listed) Std.TreeSet.not_mem_emptyc
  complete _ none := none.elim
  used_iff name := by
    rw [isUsed_iff]
    refine iff_of_false ?_ id
    rintro (⟨m, listed, _⟩ | ⟨m, listed, _⟩)
    · cases listed with | mk listed => cases listed
    · exact Std.TreeSet.not_mem_emptyc (Std.TreeSet.mem_of_mem_toList listed)

/-- A batch adds what it defines and what it uses. -/
theorem Holds.post (holds : b.Holds defined used) (batch : Batch) :
    (b.post batch).Holds (fun m => defined m ∨ m ∈ batch.defined)
      fun name => used name ∨ ∃ m ∈ batch.used, m.name = name := by
  cases batch with
  | symbols mentions =>
      constructor
      · intro m listed
        exact (mem_toList_foldl_insert listed).imp (holds.sound m) id
      · rintro m (before | new)
        · exact mem_foldl_insert.mpr (.inl (holds.complete m before))
        · exact mem_foldl_insert.mpr (.inr ⟨m, new, rfl⟩)
      · intro name
        rw [← holds.used_iff]
        simp only [Batch.used, List.not_mem_nil, false_and, exists_const, or_false]
        rfl
  | invocations mentions =>
      constructor
      · exact fun m listed => .inl (holds.sound m listed)
      · rintro m (before | new)
        · exact holds.complete m before
        · cases new
      · intro name
        rw [← holds.used_iff, isUsed_iff, isUsed_iff]
        simp only [Bank.post, addInvocations, Batch.used, ← Array.mem_toList_iff,
          Array.toList_appendList, List.mem_append]
        grind
  | references mentions =>
      constructor
      · exact fun m listed => .inl (holds.sound m listed)
      · rintro m (before | new)
        · exact holds.complete m before
        · cases new
      · intro name
        rw [← holds.used_iff, isUsed_iff, isUsed_iff, Bank.post, exists_mem_references_iff]
        simp only [addReferences, Batch.used, or_assoc]

theorem Holds.foldl_post (holds : b.Holds defined used) (batches : List Batch) :
    (batches.foldl Bank.post b).Holds
      (fun m => defined m ∨ ∃ batch ∈ batches, m ∈ batch.defined)
      fun name => used name ∨ ∃ batch ∈ batches, ∃ m ∈ batch.used, m.name = name := by
  induction batches generalizing b defined used with
  | nil => exact holds.congr (by simp) (by simp)
  | cons batch rest ih =>
      refine (ih (holds.post batch)).congr ?_ ?_
      · intro m
        simp only [List.mem_cons, exists_eq_or_imp, or_assoc]
      · intro name
        simp only [List.mem_cons, exists_eq_or_imp, or_assoc]

/-- The bank holds what has been posted. -/
theorem holds_foldl_post (batches : List Batch) :
    (batches.foldl Bank.post {}).Holds (fun m => ∃ batch ∈ batches, m ∈ batch.defined)
      fun name => ∃ batch ∈ batches, ∃ m ∈ batch.used, m.name = name :=
  (holds_empty.foldl_post batches).congr (by simp) (by simp)

end Bank

end SourceLint
