import Mathlib.Data.List.Lex
import Mathlib.Data.List.Nodup
import Mathlib.Order.Cover

/-! # Finite maps in key order

A map as the list of its entries in strictly increasing key order. Keys are
compared by `compare` alone, so two keys that compare equal are one key, whatever
else they hold. The two questions a sorted map answers are the value at a key and
the first entry at or above a bound. Where the keys are lists in lexicographic
order, the keys under a prefix lie between two bounds.
-/

namespace Foundation

/-- A finite map, as its entries in increasing key order. -/
structure OrderedMap (κ ν : Type*) [Ord κ] where
  entries : List (κ × ν)
  sorted : entries.Pairwise fun first second => compare first.1 second.1 = .lt

namespace OrderedMap

variable {κ ν : Type*} [Ord κ]

/-- The map without entries. -/
def empty : OrderedMap κ ν := ⟨[], .nil⟩

/-- Put a value at a key of a sorted entry list. A key already there stays and
its value is replaced. -/
def insertEntry (key : κ) (value : ν) : List (κ × ν) → List (κ × ν)
  | [] => [(key, value)]
  | entry :: rest =>
      match compare key entry.1 with
      | .lt => (key, value) :: entry :: rest
      | .eq => (entry.1, value) :: rest
      | .gt => entry :: insertEntry key value rest

/-- An insertion brings in no other key and no other value. -/
theorem mem_insertEntry {key : κ} {value : ν} {entries : List (κ × ν)} {entry : κ × ν}
    (member : entry ∈ insertEntry key value entries) :
    (entry.1 = key ∨ ∃ old, (entry.1, old) ∈ entries) ∧ (entry.2 = value ∨ entry ∈ entries) := by
  induction entries with
  | nil =>
      have here := List.mem_singleton.mp member
      exact ⟨Or.inl (congrArg Prod.fst here), Or.inl (congrArg Prod.snd here)⟩
  | cons head rest ih =>
      have kept (there : entry ∈ rest) :
          (entry.1 = key ∨ ∃ old, (entry.1, old) ∈ head :: rest) ∧
            (entry.2 = value ∨ entry ∈ head :: rest) :=
        have wider := List.mem_cons_of_mem head there
        ⟨Or.inr ⟨entry.2, wider⟩, Or.inr wider⟩
      unfold insertEntry at member
      split at member
      · rcases List.mem_cons.mp member with here | there
        · exact ⟨Or.inl (congrArg Prod.fst here), Or.inl (congrArg Prod.snd here)⟩
        · exact ⟨Or.inr ⟨entry.2, there⟩, Or.inr there⟩
      · rcases List.mem_cons.mp member with here | there
        · subst here
          exact ⟨Or.inr ⟨head.2, List.mem_cons_self⟩, Or.inl rfl⟩
        · exact kept there
      · rcases List.mem_cons.mp member with here | there
        · subst here
          exact ⟨Or.inr ⟨entry.2, List.mem_cons_self⟩, Or.inr List.mem_cons_self⟩
        · obtain ⟨keyed, valued⟩ := ih there
          exact ⟨keyed.imp_right fun ⟨old, present⟩ => ⟨old, List.mem_cons_of_mem _ present⟩,
            valued.imp_right (List.mem_cons_of_mem _)⟩

/-- The inserted key is present up to `compare`, with the inserted value. -/
theorem insertEntry_present [Std.TransOrd κ] (key : κ) (value : ν) (entries : List (κ × ν)) :
    ∃ entry ∈ insertEntry key value entries, compare key entry.1 = .eq ∧ entry.2 = value := by
  induction entries with
  | nil => exact ⟨(key, value), List.mem_singleton.mpr rfl, Std.ReflCmp.compare_self, rfl⟩
  | cons head rest ih =>
      unfold insertEntry
      split
      · exact ⟨(key, value), List.mem_cons_self, Std.ReflCmp.compare_self, rfl⟩
      · rename_i same
        exact ⟨(head.1, value), List.mem_cons_self, same, rfl⟩
      · obtain ⟨entry, member, found⟩ := ih
        exact ⟨entry, List.mem_cons_of_mem _ member, found⟩

/-- A key already in the map is still there after an insertion. -/
theorem insertEntry_keeps (key : κ) (value : ν) {entries : List (κ × ν)} {entry : κ × ν}
    (member : entry ∈ entries) : ∃ kept ∈ insertEntry key value entries, kept.1 = entry.1 := by
  induction entries with
  | nil => exact absurd member List.not_mem_nil
  | cons head rest ih =>
      unfold insertEntry
      split
      · exact ⟨entry, List.mem_cons_of_mem _ member, rfl⟩
      · rcases List.mem_cons.mp member with here | there
        · exact ⟨(head.1, value), List.mem_cons_self, (congrArg Prod.fst here).symm⟩
        · exact ⟨entry, List.mem_cons_of_mem _ there, rfl⟩
      · rcases List.mem_cons.mp member with here | there
        · exact ⟨head, List.mem_cons_self, (congrArg Prod.fst here).symm⟩
        · obtain ⟨kept, inside, same⟩ := ih there
          exact ⟨kept, List.mem_cons_of_mem _ inside, same⟩

/-- Inserting keeps the entries sorted. -/
theorem insertEntry_sorted [Std.TransOrd κ] (key : κ) (value : ν) {entries : List (κ × ν)}
    (sorted : entries.Pairwise fun first second => compare first.1 second.1 = .lt) :
    (insertEntry key value entries).Pairwise fun first second =>
      compare first.1 second.1 = .lt := by
  induction entries with
  | nil => exact List.pairwise_singleton _ _
  | cons head rest ih =>
      obtain ⟨below, tailSorted⟩ := List.pairwise_cons.mp sorted
      unfold insertEntry
      split
      · rename_i before
        refine List.pairwise_cons.mpr ⟨?_, sorted⟩
        intro other member
        rcases List.mem_cons.mp member with here | there
        · exact here ▸ before
        · exact Std.TransCmp.lt_trans before (below other there)
      · exact List.pairwise_cons.mpr ⟨below, tailSorted⟩
      · rename_i after
        refine List.pairwise_cons.mpr ⟨?_, ih tailSorted⟩
        intro other member
        rcases (mem_insertEntry member).1 with new | ⟨old, present⟩
        · exact new ▸ Std.OrientedCmp.gt_iff_lt.mp after
        · exact below (other.1, old) present

variable [Std.TransOrd κ]

/-- Put a value at a key. -/
def insert (map : OrderedMap κ ν) (key : κ) (value : ν) : OrderedMap κ ν :=
  ⟨insertEntry key value map.entries, insertEntry_sorted key value map.sorted⟩

/-- The map of a list of key-value pairs; of two pairs with one key the later
counts. -/
def collect (pairs : List (κ × ν)) : OrderedMap κ ν :=
  pairs.foldl (fun map pair => map.insert pair.1 pair.2) empty

/-- The value at a key. -/
def get? (map : OrderedMap κ ν) (key : κ) : Option ν :=
  (map.entries.find? fun entry => compare key entry.1 == .eq).map Prod.snd

/-- The first entry whose key is within a lower bound. -/
def firstFrom (map : OrderedMap κ ν) (within : κ → Bool) : Option (κ × ν) :=
  map.entries.find? fun entry => within entry.1

/-- The keys, in increasing order. -/
def keys (map : OrderedMap κ ν) : List κ := map.entries.map Prod.fst

omit [Std.TransOrd κ] in
/-- The first entry within a bound is the least of those within it. -/
theorem firstFrom_eq_some {map : OrderedMap κ ν} {within : κ → Bool} {entry : κ × ν}
    (found : map.firstFrom within = some entry) :
    entry ∈ map.entries ∧ within entry.1 ∧
      ∀ other ∈ map.entries, within other.1 → other = entry ∨ compare entry.1 other.1 = .lt := by
  obtain ⟨inside, before, after, split, skipped⟩ := List.find?_eq_some_iff_append.mp found
  have sorted := map.sorted
  rw [split] at sorted
  obtain ⟨_, fromHere, _⟩ := List.pairwise_append.mp sorted
  have above := (List.pairwise_cons.mp fromHere).1
  refine ⟨split ▸ List.mem_append_right _ List.mem_cons_self, inside, ?_⟩
  intro other member reached
  rw [split] at member
  rcases List.mem_append.mp member with earlier | later
  · have missed := skipped other earlier
    simp only [reached, Bool.not_true, Bool.false_eq_true] at missed
  · rcases List.mem_cons.mp later with here | there
    · exact Or.inl here
    · exact Or.inr (above other there)

omit [Std.TransOrd κ] in
/-- There is no first entry within a bound when no entry is within it. -/
theorem firstFrom_eq_none {map : OrderedMap κ ν} {within : κ → Bool}
    (missing : map.firstFrom within = none) (entry : κ × ν) (member : entry ∈ map.entries) :
    within entry.1 = false := by
  simpa only [Bool.not_eq_true] using List.find?_eq_none.mp missing entry member

/-- Every key of a collected map is the key of a pair, and every value the value
of one. -/
theorem collect_entries (keyed : κ → Prop) (valued : ν → Prop) (pairs : List (κ × ν))
    (each : ∀ pair ∈ pairs, keyed pair.1 ∧ valued pair.2) :
    ∀ entry ∈ (collect pairs).entries, keyed entry.1 ∧ valued entry.2 := by
  suffices general : ∀ map : OrderedMap κ ν,
      (∀ entry ∈ map.entries, keyed entry.1 ∧ valued entry.2) →
        ∀ entry ∈ (pairs.foldl (fun map pair => map.insert pair.1 pair.2) map).entries,
          keyed entry.1 ∧ valued entry.2 from
    general empty fun _ member => absurd member List.not_mem_nil
  induction pairs with
  | nil => exact fun _ held => held
  | cons pair rest ih =>
      intro map held
      refine ih (fun pair member => each pair (List.mem_cons_of_mem _ member)) _ ?_
      intro entry member
      have new := each pair List.mem_cons_self
      obtain ⟨key, value⟩ := mem_insertEntry member
      constructor
      · rcases key with here | ⟨old, present⟩
        · exact here ▸ new.1
        · exact (held _ present).1
      · rcases value with here | present
        · exact here ▸ new.2
        · exact (held entry present).2

/-- Every collected key is a key of the map, up to `compare`. -/
theorem collect_present (pairs : List (κ × ν)) :
    ∀ pair ∈ pairs, ∃ entry ∈ (collect pairs).entries, compare pair.1 entry.1 = .eq := by
  suffices general : ∀ map : OrderedMap κ ν, ∀ key,
      ((∃ entry ∈ map.entries, compare key entry.1 = .eq) ∨ ∃ pair ∈ pairs, pair.1 = key) →
        ∃ entry ∈ (pairs.foldl (fun map pair => map.insert pair.1 pair.2) map).entries,
          compare key entry.1 = .eq from
    fun pair member => general empty pair.1 (Or.inr ⟨pair, member, rfl⟩)
  induction pairs with
  | nil =>
      rintro map key (present | ⟨pair, member, _⟩)
      · exact present
      · exact absurd member List.not_mem_nil
  | cons pair rest ih =>
      intro map key source
      apply ih (map.insert pair.1 pair.2) key
      rcases source with ⟨entry, member, same⟩ | ⟨other, member, named⟩
      · obtain ⟨kept, inside, equal⟩ := insertEntry_keeps pair.1 pair.2 member
        exact Or.inl ⟨kept, inside, equal ▸ same⟩
      · rcases List.mem_cons.mp member with here | there
        · obtain ⟨entry, inside, same, _⟩ := insertEntry_present pair.1 pair.2 map.entries
          exact Or.inl ⟨entry, inside, named ▸ here ▸ same⟩
        · exact Or.inr ⟨other, there, named⟩

/-- Lookup in an entry list after an insertion: the new value at the keys equal to
the inserted one, and elsewhere what was there. -/
theorem find?_insertEntry (key : κ) (value : ν) (entries : List (κ × ν)) (other : κ) :
    ((insertEntry key value entries).find? fun entry => compare other entry.1 == .eq).map
        Prod.snd =
      if compare other key = .eq then some value
      else (entries.find? fun entry => compare other entry.1 == .eq).map Prod.snd := by
  induction entries with
  | nil => by_cases same : compare other key = .eq <;> simp [insertEntry, same]
  | cons head rest ih =>
      have congruent (same : compare other key = .eq) :
          compare other head.1 = compare key head.1 := Std.TransCmp.congr_left same
      unfold insertEntry
      split
      · by_cases same : compare other key = .eq <;> simp [List.find?_cons, same]
      · rename_i equal
        have moved : compare other head.1 = compare other key :=
          (Std.TransCmp.congr_right equal).symm
        by_cases same : compare other key = .eq <;> simp [same, moved]
      · rename_i after
        by_cases same : compare other key = .eq
        · have missed : compare other head.1 = .gt := (congruent same).trans after
          simpa [List.find?_cons, same, missed] using ih
        · by_cases here : compare other head.1 = .eq
          · simp [same, here]
          · simp only [same, ↓reduceIte] at ih ⊢
            simpa [List.find?_cons, here] using ih

/-- Lookup after an insertion. -/
theorem get?_insert (map : OrderedMap κ ν) (key other : κ) (value : ν) :
    (map.insert key value).get? other =
      if compare other key = .eq then some value else map.get? other :=
  find?_insertEntry key value map.entries other

omit [Std.TransOrd κ] in
/-- A value that is found stands at an equal key. -/
theorem get?_eq_some {map : OrderedMap κ ν} {key : κ} {value : ν}
    (found : map.get? key = some value) :
    ∃ entry ∈ map.entries, compare key entry.1 = .eq ∧ entry.2 = value := by
  obtain ⟨entry, hit, rfl⟩ := Option.map_eq_some_iff.mp found
  have equal := List.find?_some hit
  exact ⟨entry, List.mem_of_find?_eq_some hit, beq_iff_eq.mp equal, rfl⟩

omit [Std.TransOrd κ] in
/-- No value is found only where no key is equal. -/
theorem get?_eq_none {map : OrderedMap κ ν} {key : κ} (missing : map.get? key = none)
    (entry : κ × ν) (member : entry ∈ map.entries) : compare key entry.1 ≠ .eq := by
  have differs := List.find?_eq_none.mp (Option.map_eq_none_iff.mp missing) entry member
  simpa only [beq_iff_eq] using differs

omit [Std.TransOrd κ] in
/-- Where keys that compare equal are equal, the keys are those with a value. -/
theorem mem_keys_iff [Std.LawfulEqOrd κ] {map : OrderedMap κ ν} {key : κ} :
    key ∈ map.keys ↔ (map.get? key).isSome := by
  rw [get?, Option.isSome_map, List.find?_isSome, keys, List.mem_map]
  simp only [beq_iff_eq, Std.compare_eq_iff_eq]
  constructor
  · intro ⟨entry, member, same⟩
    exact ⟨entry, member, same.symm⟩
  · intro ⟨entry, member, same⟩
    exact ⟨entry, member, same.symm⟩

omit [Std.TransOrd κ] in
/-- An insertion at a new key adds one entry. -/
theorem length_insertEntry {key : κ} (value : ν) {entries : List (κ × ν)}
    (fresh : ∀ entry ∈ entries, compare key entry.1 ≠ .eq) :
    (insertEntry key value entries).length = entries.length + 1 := by
  induction entries with
  | nil => rfl
  | cons head rest ih =>
      unfold insertEntry
      split
      · rfl
      · rename_i same
        exact absurd same (fresh head List.mem_cons_self)
      · rw [List.length_cons, List.length_cons,
          ih fun entry member => fresh entry (List.mem_cons_of_mem _ member)]

/-- Pairs with different keys make one entry each. -/
theorem length_collect {pairs : List (κ × ν)}
    (distinct : pairs.Pairwise fun first second => compare second.1 first.1 ≠ .eq) :
    (collect pairs).entries.length = pairs.length := by
  suffices general : ∀ map : OrderedMap κ ν,
      (∀ entry ∈ map.entries, ∀ pair ∈ pairs, compare pair.1 entry.1 ≠ .eq) →
        (pairs.foldl (fun map pair => map.insert pair.1 pair.2) map).entries.length =
          map.entries.length + pairs.length by
    have whole := general empty fun _ member => absurd member List.not_mem_nil
    rw [collect, whole]
    exact Nat.zero_add _
  induction pairs with
  | nil => exact fun _ _ => rfl
  | cons pair rest ih =>
      obtain ⟨apart, distinct⟩ := List.pairwise_cons.mp distinct
      intro map fresh
      rw [List.foldl_cons, ih distinct, List.length_cons]
      · have grown : (map.insert pair.1 pair.2).entries.length = map.entries.length + 1 :=
          length_insertEntry pair.2 fun entry member => fresh entry member pair List.mem_cons_self
        rw [grown]
        omega
      · intro entry member other further
        rcases (mem_insertEntry member).1 with new | ⟨old, present⟩
        · exact new ▸ apart other further
        · exact fresh _ present other (List.mem_cons_of_mem _ further)

/-- A map holds items by a key of theirs. -/
structure Indexes {α : Type*} (map : OrderedMap κ α) (key : α → κ) (items : List α) : Prop where
  sound : ∀ name item, map.get? name = some item → item ∈ items ∧ key item = name
  present : ∀ item ∈ items, (map.get? (key item)).isSome

omit [Std.TransOrd κ] in
/-- The empty map indexes no items. -/
theorem Indexes.empty {α : Type*} (key : α → κ) : Indexes empty key [] where
  sound _ _ found := nomatch found
  present _ member := absurd member List.not_mem_nil

/-- Putting an item in under its key extends what the map holds. -/
theorem Indexes.insert [Std.LawfulEqOrd κ] {α : Type*} {map : OrderedMap κ α} {key : α → κ}
    {items : List α} (indexes : map.Indexes key items) (item : α) :
    (map.insert (key item) item).Indexes key (items ++ [item]) where
  sound name found hit := by
    rw [get?_insert] at hit
    by_cases same : compare name (key item) = .eq
    · rw [if_pos same] at hit
      cases hit
      exact ⟨List.mem_append_right _ List.mem_cons_self, (Std.compare_eq_iff_eq.mp same).symm⟩
    · rw [if_neg same] at hit
      exact (indexes.sound name found hit).imp_left (List.mem_append_left _)
  present other member := by
    rw [get?_insert]
    split
    · rfl
    · rename_i differs
      rcases List.mem_append.mp member with before | here
      · exact indexes.present other before
      · cases List.mem_singleton.mp here
        exact absurd Std.ReflCmp.compare_self differs

omit [Std.TransOrd κ] in
/-- A key is in the map just when an item has it. -/
theorem Indexes.isSome_iff {α : Type*} {map : OrderedMap κ α} {key : α → κ} {items : List α}
    (indexes : map.Indexes key items) {name : κ} :
    (map.get? name).isSome ↔ ∃ item ∈ items, key item = name := by
  constructor
  · intro found
    obtain ⟨item, hit⟩ := Option.isSome_iff_exists.mp found
    exact ⟨item, indexes.sound name item hit⟩
  · intro ⟨item, member, same⟩
    exact same ▸ indexes.present item member

omit [Std.TransOrd κ] in
/-- Where the items have distinct keys, lookup finds the one with the key. -/
theorem Indexes.get?_eq_some_iff {α : Type*} {map : OrderedMap κ α} {key : α → κ} {items : List α}
    (indexes : map.Indexes key items) (distinct : (items.map key).Nodup) {name : κ} {item : α} :
    map.get? name = some item ↔ item ∈ items ∧ key item = name := by
  refine ⟨indexes.sound name item, fun ⟨member, same⟩ => ?_⟩
  obtain ⟨found, hit⟩ := Option.isSome_iff_exists.mp (indexes.present item member)
  obtain ⟨inside, equal⟩ := indexes.sound _ _ hit
  rw [← same, hit, List.inj_on_of_nodup_map distinct inside member equal]

end OrderedMap

/-- In lexicographic order the extensions of a list are an interval: from the list up
to the same list with its last element raised to the next. -/
theorem prefix_iff_between {α : Type*} [LinearOrder α] {last next : α} (covers : last ⋖ next)
    (stem name : List α) :
    stem ++ [last] <+: name ↔ stem ++ [last] ≤ name ∧ name < stem ++ [next] := by
  rw [← not_lt]
  induction stem generalizing name with
  | nil =>
      cases name with
      | nil => simp
      | cons head rest =>
          rw [List.nil_append, List.nil_append, List.cons_prefix_cons, List.cons_lt_cons_iff,
            List.cons_lt_cons_iff]
          constructor
          · intro ⟨same, _⟩
            subst same
            refine ⟨fun below => ?_, Or.inl covers.lt⟩
            rcases below with below | ⟨_, short⟩
            · exact below.false
            · exact List.not_lt_nil rest short
          · intro ⟨above, below⟩
            refine ⟨?_, List.nil_prefix⟩
            rcases below with below | ⟨_, short⟩
            · apply le_antisymm
              · exact not_lt.mp fun under => above (Or.inl under)
              · exact not_lt.mp fun higher => covers.2 higher below
            · exact absurd short (List.not_lt_nil rest)
  | cons head stem ih =>
      cases name with
      | nil => simp
      | cons other rest =>
          rw [List.cons_append, List.cons_append, List.cons_prefix_cons, List.cons_lt_cons_iff,
            List.cons_lt_cons_iff, ih]
          constructor
          · intro ⟨same, above, below⟩
            subst same
            refine ⟨fun under => ?_, Or.inr ⟨rfl, below⟩⟩
            rcases under with under | ⟨_, under⟩
            · exact under.false
            · exact above under
          · intro ⟨above, below⟩
            rcases below with below | ⟨same, below⟩
            · exact absurd (Or.inl below) above
            · exact ⟨same.symm, fun under => above (Or.inr ⟨same, under⟩), below⟩

end Foundation
