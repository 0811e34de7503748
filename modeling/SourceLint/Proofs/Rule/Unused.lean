import SourceLint.Proofs.Bank.Contents

/-! # The order of the unused functions

The function rule finds the functions in its bank in no order that it knows, and sorts
them by place alone. What comes out still has one order, as long as no place has two
names; and the spelling of a path aside it depends only on what has been defined and
what is used.
-/

namespace SourceLint.UnusedFunction

/-- A function of that name is reported when it is defined. -/
def isReported (config : Config) (bank : Bank) (name : String) : Bool :=
  !isUsed bank name && !(Glob.compileAll config.functionExcludes).any (Glob.matches · name)

/-- What mentions are compared by. -/
abbrev Key := String × List Path.Component × Nat × Nat

/-- The order of places. -/
def comparePlaces : Key → Key → Ordering :=
  compareLex (compareOn fun k : Key => k.2.1)
    (compareLex (compareOn fun k : Key => k.2.2.1) (compareOn fun k : Key => k.2.2.2))

instance : Std.TransCmp comparePlaces :=
  inferInstanceAs (Std.TransCmp (compareLex (compareOn fun k : Key => k.2.1)
    (compareLex (compareOn fun k : Key => k.2.2.1) (compareOn fun k : Key => k.2.2.2))))

theorem place_eq_of_comparePlaces {a b : Key} (same : comparePlaces a b = .eq) : a.2 = b.2 := by
  obtain ⟨file, rest⟩ := Ordering.then_eq_eq.mp same
  obtain ⟨line, column⟩ := Ordering.then_eq_eq.mp rest
  exact Prod.ext (Std.compare_eq_iff_eq.mp file)
    (Prod.ext (Std.compare_eq_iff_eq.mp line) (Std.compare_eq_iff_eq.mp column))

theorem pairwise_mergeSort_comparePlaces (l : List Key) :
    (l.mergeSort fun a b => (comparePlaces a b).isLE).Pairwise
      fun a b => (comparePlaces a b).isLE := by
  refine List.pairwise_mergeSort (fun a b c => Std.TransCmp.isLE_trans) (fun a b => ?_) l
  rw [Bool.or_eq_true]
  by_cases first : (comparePlaces a b).isLE
  · exact .inl first
  · exact .inr (Ordering.isLE_of_eq_lt (Std.OrientedCmp.lt_of_not_isLE first))

theorem keys_unusedAmong (config : Config) (bank : Bank) (symbols : List Mention) :
    (unusedAmong config bank symbols).map Mention.key =
      ((symbols.filter fun m => isReported config bank m.name).map Mention.key).mergeSort
        fun a b => (comparePlaces a b).isLE :=
  List.map_mergeSort fun _ _ _ _ => rfl

variable {config : Config} {bank bank' : Bank} {defined : Mention → Prop} {used : String → Prop}

/-- The definitions of a bank are compared by different things. -/
theorem nodup_keys (bank : Bank) {symbols : List Mention}
    (order : symbols.Perm bank.symbols.toList) : (symbols.map Mention.key).Nodup := by
  have distinct : (bank.symbols.toList.map Mention.key).Nodup := by
    refine List.pairwise_map.mpr (Std.TreeSet.distinct_toList.imp ?_)
    exact fun differ same => differ (Mention.compare_eq_iff.mpr same)
  exact (order.map Mention.key).symm.nodup distinct

/-- The functions that are reported, by what they are compared by. -/
theorem mem_reported_iff (holds : bank.Holds defined used) {symbols : List Mention}
    (order : symbols.Perm bank.symbols.toList) (key : Key) :
    key ∈ (symbols.filter fun m => isReported config bank m.name).map Mention.key ↔
      ∃ m, defined m ∧ isReported config bank m.name = true ∧ m.key = key := by
  simp only [List.mem_map, List.mem_filter, order.mem_iff]
  constructor
  · rintro ⟨m, ⟨listed, reported⟩, rfl⟩
    exact ⟨m, holds.sound m listed, reported, rfl⟩
  · rintro ⟨m, is, reported, rfl⟩
    obtain ⟨k, listed, same⟩ := mem_iff_exists_mem_toList.mp (holds.complete m is)
    have name : k.name = m.name := congrArg Prod.fst same
    exact ⟨k, ⟨listed, name ▸ reported⟩, same⟩

theorem isReported_eq (holds : bank.Holds defined used) (holds' : bank'.Holds defined used)
    (name : String) : isReported config bank name = isReported config bank' name := by
  have same : isUsed bank name = isUsed bank' name := by
    rw [Bool.eq_iff_iff, holds.used_iff, holds'.used_iff]
  rw [isReported, isReported, same]

/-- Banks that hold the same have the same unused functions in the same order, in whatever
order their definitions are looked at. -/
theorem keys_unusedAmong_eq (holds : bank.Holds defined used) (holds' : bank'.Holds defined used)
    (named : ∀ m n, defined m → defined n → m.location.key = n.location.key → m.name = n.name)
    {symbols symbols' : List Mention} (order : symbols.Perm bank.symbols.toList)
    (order' : symbols'.Perm bank'.symbols.toList) :
    (unusedAmong config bank symbols).map Mention.key =
      (unusedAmong config bank' symbols').map Mention.key := by
  rw [keys_unusedAmong, keys_unusedAmong]
  have perm : ((symbols.filter fun m => isReported config bank m.name).map Mention.key).Perm
      ((symbols'.filter fun m => isReported config bank' m.name).map Mention.key) := by
    refine (List.perm_ext_iff_of_nodup ?_ ?_).mpr fun key => ?_
    · exact (nodup_keys bank order).sublist (List.filter_sublist.map _)
    · exact (nodup_keys bank' order').sublist (List.filter_sublist.map _)
    · rw [mem_reported_iff holds order, mem_reported_iff holds' order']
      simp only [isReported_eq holds holds']
  refine List.Perm.eq_of_pairwise ?_ (pairwise_mergeSort_comparePlaces _)
    (pairwise_mergeSort_comparePlaces _)
    ((List.mergeSort_perm _ _).trans (perm.trans (List.mergeSort_perm _ _).symm))
  intro a b inA inB before after
  have place := place_eq_of_comparePlaces (Std.OrientedCmp.isLE_antisymm before after)
  obtain ⟨m, is, _, rfl⟩ := (mem_reported_iff holds order a).mp (List.mem_mergeSort.mp inA)
  obtain ⟨n, is', _, rfl⟩ := (mem_reported_iff holds' order' b).mp (List.mem_mergeSort.mp inB)
  exact Prod.ext (named m n is is' place) place

/-- What is reported has been defined. -/
theorem defined_of_mem_unusedAmong (holds : bank.Holds defined used) {symbols : List Mention}
    (order : symbols.Perm bank.symbols.toList) {m : Mention}
    (member : m ∈ unusedAmong config bank symbols) : defined m := by
  have listed := (List.mem_filter.mp (List.mem_mergeSort.mp member)).1
  exact holds.sound m (order.mem_iff.mp listed)

end SourceLint.UnusedFunction
