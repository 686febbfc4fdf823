import IfStack.Foundation.Fold
import IfStack.Link.Topology

/-! # What an inventory must be, and what it says

A valid inventory names every link once and refers only to links it lists. The
checks of `from_observed` are spread over two loops; together they accept exactly
the valid inventories, and the relationships they collect are the direct ones the
links state.
-/

namespace IfStack

open Foundation

/-- The kinds that stand on the link their lower reference names. -/
def LinkKind.Stacked (kind : LinkKind) : Prop :=
  kind = .vlan ∨ kind = .macVlan ∨ kind = .ipVlan ∨ kind = .macVtap

/-- The kinds that stand on the links they control. -/
def LinkKind.Aggregates (kind : LinkKind) : Prop := kind = .bond ∨ kind = .bridge

namespace ObservedLink

/-- A link can be named: its index is in the range of `ifIndex`, its name is not
empty. -/
def Identified (link : ObservedLink) : Prop :=
  1 ≤ link.index.toNat ∧ link.index.toNat ≤ 2 ^ 31 - 1 ∧ link.name ≠ ""

/-- Two links are told apart by index and by name. -/
def Apart (first second : ObservedLink) : Prop :=
  first.index ≠ second.index ∧ first.name ≠ second.name

/-- The references of a link hold among the links it is listed with. -/
structure Refers (listed : UInt32 → Prop) (link : ObservedLink) : Prop where
  controller : ∀ controller ∈ link.controller, listed controller ∧ controller ≠ link.index
  lower : link.kind.Stacked → ∃ lower, link.lower = some lower ∧ link.lowerNetnsid = none ∧
    listed lower ∧ lower ≠ link.index
  underlay : link.kind = .vxlan → link.lowerNetnsid = none → link.vxlanLower ≠ some link.index

end ObservedLink

/-- Some link of an inventory has the index. -/
def Listed (links : List ObservedLink) (index : UInt32) : Prop :=
  ∃ link ∈ links, link.index = index

/-- A valid inventory. -/
structure ValidInventory (links : List ObservedLink) : Prop where
  identified : ∀ link ∈ links, link.Identified
  indices : (links.map ObservedLink.index).Nodup
  names : (links.map ObservedLink.name).Nodup
  refers : ∀ link ∈ links, link.Refers (Listed links)

/-- An inventory says that one link directly runs over another. -/
def RunsOver (links : List ObservedLink) (higher lower : UInt32) : Prop :=
  (∃ link ∈ links, link.index = lower ∧ link.controller = some higher ∧
    ∃ controller ∈ links, controller.index = higher ∧ controller.kind.Aggregates) ∨
  (∃ link ∈ links, link.index = higher ∧ link.kind.Stacked ∧ link.lower = some lower) ∨
  ∃ link ∈ links, link.index = higher ∧ link.kind = .vxlan ∧ link.lowerNetnsid = none ∧
    link.vxlanLower = some lower ∧ Listed links lower

namespace Topology

/-- The maps of the first loop hold the links seen, by index and by name. -/
structure Seen.Tracks (seen : Seen) (links : List ObservedLink) : Prop where
  byIndex : seen.byIndex.Indexes ObservedLink.index links
  byName : seen.byName.Indexes ObservedLink.name links

/-- The check of a link's index is the range of `ifIndex`. -/
theorem index_outside_iff (index : UInt32) :
    (index = 0 ∨ index > 2147483647) ↔ ¬ (1 ≤ index.toNat ∧ index.toNat ≤ 2 ^ 31 - 1) := by
  rw [gt_iff_lt, UInt32.lt_iff_toNat_lt, ← UInt32.toNat_inj]
  change index.toNat = 0 ∨ 2147483647 < index.toNat ↔ _
  omega

/-- The first loop refuses exactly the links without an identity of their own. -/
theorem enter_spec {seen : Seen} {taken : List ObservedLink} (tracks : seen.Tracks taken)
    (link : ObservedLink) :
    Decides (link.Identified ∧ ∀ other ∈ taken, other.Apart link)
      (fun next => next.Tracks (taken ++ [link])) (enter seen link) := by
  unfold enter
  by_cases outside : link.index = 0 ∨ link.index > 2147483647
  · rw [if_pos outside]
    rw [index_outside_iff] at outside
    exact fun sound => outside ⟨sound.1.1, sound.1.2.1⟩
  · rw [if_neg outside]
    rw [index_outside_iff, not_not] at outside
    by_cases nameless : link.name.isEmpty = true
    · rw [if_pos nameless]
      exact fun sound => sound.1.2.2 (String.isEmpty_iff.mp nameless)
    · rw [if_neg nameless]
      cases indexed : seen.byIndex.get? link.index with
      | some existing =>
          obtain ⟨member, same⟩ := tracks.byIndex.sound _ _ indexed
          exact fun sound => (sound.2 existing member).1 same
      | none =>
          cases named : seen.byName.get? link.name with
          | some existing =>
              obtain ⟨member, same⟩ := tracks.byName.sound _ _ named
              exact fun sound => (sound.2 existing member).2 same
          | none =>
              refine ⟨⟨⟨outside.1, outside.2, fun empty => nameless ?_⟩, ?_⟩, ?_⟩
              · exact String.isEmpty_iff.mpr empty
              · intro other member
                constructor
                · intro same
                  have present := tracks.byIndex.present other member
                  rw [same, indexed] at present
                  cases present
                · intro same
                  have present := tracks.byName.present other member
                  rw [same, named] at present
                  cases present
              · exact ⟨tracks.byIndex.insert link, tracks.byName.insert link⟩

/-- The relationships a link states as the lower side of its controller. -/
def UnderController (byIndex : OrderedMap UInt32 ObservedLink) (link : ObservedLink)
    (relationship : StackRelationship) : Prop :=
  relationship.lower = link.index ∧ link.controller = some relationship.higher ∧
    ∃ controller, byIndex.get? relationship.higher = some controller ∧ controller.kind.Aggregates

/-- The relationships a link of a stacked kind states as the higher side. -/
def OverLower (link : ObservedLink) (relationship : StackRelationship) : Prop :=
  relationship.higher = link.index ∧ link.lower = some relationship.lower

/-- The relationships a VXLAN link states as the higher side. -/
def OverUnderlay (byIndex : OrderedMap UInt32 ObservedLink) (link : ObservedLink)
    (relationship : StackRelationship) : Prop :=
  relationship.higher = link.index ∧ link.vxlanLower = some relationship.lower ∧
    (byIndex.get? relationship.lower).isSome

/-- The relationships grow by those with a property. -/
def Adds (relationships : Finset StackRelationship) (property : StackRelationship → Prop)
    (next : Finset StackRelationship) : Prop :=
  ∀ relationship, relationship ∈ next ↔ relationship ∈ relationships ∨ property relationship

namespace Adds

variable {relationships middle next : Finset StackRelationship}
  {property property' : StackRelationship → Prop}

/-- One relationship is added. -/
theorem one {higher lower : UInt32}
    (only : ∀ relationship, property relationship ↔
      relationship.higher = higher ∧ relationship.lower = lower) :
    Adds relationships property (insert ⟨higher, lower⟩ relationships) := by
  intro relationship
  rw [Finset.mem_insert, or_comm, only]
  apply or_congr_right
  cases relationship
  rw [StackRelationship.mk.injEq]

/-- Nothing is added. -/
theorem none (never : ∀ relationship, ¬ property relationship) :
    Adds relationships property relationships :=
  fun relationship => (or_iff_left (never relationship)).symm

/-- Two additions in turn add what either does. -/
theorem trans (first : Adds relationships property middle) (second : Adds middle property' next) :
    Adds relationships (fun relationship => property relationship ∨ property' relationship)
      next := by
  intro relationship
  rw [second, first, or_assoc]

/-- What is added may be described in another way. -/
theorem congr (adds : Adds relationships property next)
    (same : ∀ relationship, property' relationship ↔ property relationship) :
    Adds relationships property' next := by
  intro relationship
  rw [adds, same]

end Adds

section

variable {byIndex : OrderedMap UInt32 ObservedLink} {links : List ObservedLink}
  {link : ObservedLink} {relationships : Finset StackRelationship}

/-- A link's controller must be listed, and another link. -/
theorem controllerRelationship_spec (indexes : byIndex.Indexes ObservedLink.index links) :
    Decides (∀ controller ∈ link.controller, (byIndex.get? controller).isSome ∧
        controller ≠ link.index)
      (Adds relationships (UnderController byIndex link))
      (controllerRelationship byIndex link relationships) := by
  unfold controllerRelationship
  cases named : link.controller with
  | none =>
      refine ⟨fun _ known => (nomatch known), .none fun relationship under => ?_⟩
      exact nomatch named.symm.trans under.2.1
  | some index =>
      dsimp only
      cases found : byIndex.get? index with
      | none => simp [found]
      | some controller =>
          obtain ⟨_, same⟩ := indexes.sound _ _ found
          by_cases self : controller.index = link.index
          · simp only [self, ↓reduceIte]
            exact fun sound => (sound index rfl).2 (same.symm.trans self)
          · have other : ∀ known ∈ some index,
                (byIndex.get? known).isSome ∧ known ≠ link.index := by
              intro known here
              cases here
              exact ⟨found ▸ rfl, same ▸ self⟩
            by_cases aggregates : controller.kind = .bond ∨ controller.kind = .bridge
            · simp only [self, aggregates, ↓reduceIte]
              refine ⟨other, .one fun relationship => ?_⟩
              constructor
              · intro ⟨lower, higher, _⟩
                exact ⟨same ▸ (Option.some.inj (named.symm.trans higher)).symm, lower⟩
              · intro ⟨higher, lower⟩
                rw [same] at higher
                exact ⟨lower, higher ▸ named, controller, higher ▸ found, aggregates⟩
            · simp only [self, aggregates, ↓reduceIte]
              refine ⟨other, .none fun relationship ⟨_, higher, under, found', does⟩ => ?_⟩
              cases named.symm.trans higher
              cases found.symm.trans found'
              exact aggregates does

/-- The lower reference of a stacked link must be local, listed and another link. -/
theorem stackedRelationship_spec :
    Decides (∃ lower, link.lower = some lower ∧ link.lowerNetnsid = none ∧
        (byIndex.get? lower).isSome ∧ lower ≠ link.index)
      (Adds relationships (OverLower link)) (stackedRelationship byIndex link relationships) := by
  unfold stackedRelationship
  cases named : link.lower with
  | none => simp
  | some lower =>
      dsimp only
      cases remote : link.lowerNetnsid with
      | some id => simp
      | none =>
          by_cases self : lower = link.index
          · simp [self]
          · cases found : byIndex.get? lower with
            | none => simp [self, found]
            | some under =>
                simp only [self, Option.isSome_none, Option.isNone_some, Bool.false_eq_true,
                  ↓reduceIte]
                refine ⟨⟨lower, rfl, trivial, found ▸ rfl, self⟩, .one fun relationship => ?_⟩
                rw [OverLower, named, Option.some.injEq, @eq_comm _ lower]

/-- The underlay of a local VXLAN link must not be the link itself. -/
theorem vxlanRelationship_spec (listed : (byIndex.get? link.index).isSome) :
    Decides (link.vxlanLower ≠ some link.index)
      (Adds relationships (OverUnderlay byIndex link))
      (vxlanRelationship byIndex link relationships) := by
  unfold vxlanRelationship
  cases named : link.vxlanLower with
  | none =>
      refine ⟨fun same => (nomatch same), .none fun relationship above => ?_⟩
      exact nomatch named.symm.trans above.2.1
  | some lower =>
      dsimp only
      by_cases self : lower = link.index
      · simp [self, listed]
      · cases found : byIndex.get? lower with
        | none =>
            simp only [Option.isSome_none, Bool.false_eq_true, ↓reduceIte]
            refine ⟨fun same => self (Option.some.inj same), .none fun relationship above => ?_⟩
            obtain ⟨_, under, present⟩ := above
            cases named.symm.trans under
            rw [found] at present
            cases present
        | some under =>
            simp only [self, Option.isSome_some, ↓reduceIte]
            refine ⟨fun same => self (Option.some.inj same), .one fun relationship => ?_⟩
            constructor
            · intro ⟨higher, lower, _⟩
              exact ⟨higher, (Option.some.inj (named.symm.trans lower)).symm⟩
            · intro ⟨higher, lower⟩
              exact ⟨higher, lower ▸ named, lower ▸ found ▸ rfl⟩

/-- The relationships a link states, as the second loop looks them up. -/
def States (byIndex : OrderedMap UInt32 ObservedLink) (link : ObservedLink)
    (relationship : StackRelationship) : Prop :=
  UnderController byIndex link relationship ∨
    link.kind.Stacked ∧ OverLower link relationship ∨
    link.kind = .vxlan ∧ link.lowerNetnsid = none ∧ OverUnderlay byIndex link relationship

/-- What a link states as the higher side depends on its kind. -/
theorem relateKind_spec (listed : (byIndex.get? link.index).isSome) :
    Decides ((link.kind.Stacked → ∃ lower, link.lower = some lower ∧ link.lowerNetnsid = none ∧
        (byIndex.get? lower).isSome ∧ lower ≠ link.index) ∧
        (link.kind = .vxlan → link.lowerNetnsid = none → link.vxlanLower ≠ some link.index))
      (Adds relationships fun relationship => link.kind.Stacked ∧ OverLower link relationship ∨
        link.kind = .vxlan ∧ link.lowerNetnsid = none ∧ OverUnderlay byIndex link relationship)
      (match link.kind with
      | .vlan | .macVlan | .ipVlan | .macVtap => stackedRelationship byIndex link relationships
      | .vxlan =>
          if link.lowerNetnsid.isNone then vxlanRelationship byIndex link relationships
          else .ok relationships
      | _ => .ok relationships) := by
  cases kind : link.kind with
  | vlan | macVlan | ipVlan | macVtap =>
      apply stackedRelationship_spec.congr
      · simp [LinkKind.Stacked]
      · intro _ next adds
        apply adds.congr
        simp [LinkKind.Stacked]
  | vxlan =>
      dsimp only
      by_cases here : link.lowerNetnsid = none
      · rw [here, Option.isNone_none, if_pos rfl]
        apply (vxlanRelationship_spec listed).congr
        · simp [LinkKind.Stacked]
        · intro _ next adds
          apply adds.congr
          simp [LinkKind.Stacked]
      · rw [Option.isNone_eq_false_iff.mpr (Option.isSome_iff_ne_none.mpr here)]
        refine ⟨by simp [LinkKind.Stacked, here], .none ?_⟩
        simp [LinkKind.Stacked, here]
  | bond | bridge | veth | other =>
      refine ⟨by simp [LinkKind.Stacked], .none ?_⟩
      simp [LinkKind.Stacked]

/-- The second loop refuses exactly the links whose references do not hold, and adds
the relationships the others state. -/
theorem relate_spec (indexes : byIndex.Indexes ObservedLink.index links)
    (listed : (byIndex.get? link.index).isSome) :
    Decides (link.Refers fun index => (byIndex.get? index).isSome)
      (Adds relationships (States byIndex link)) (relate byIndex relationships link) := by
  have both : Decides (_ ∧ _) (Adds relationships (States byIndex link))
      (relate byIndex relationships link) :=
    (controllerRelationship_spec indexes).bind fun _ middle under =>
      (@relateKind_spec byIndex link middle listed).congr Iff.rfl fun _ _ above => under.trans above
  apply both.congr
  · constructor
    · intro refers
      exact ⟨refers.controller, refers.lower, refers.underlay⟩
    · intro ⟨controller, lower, underlay⟩
      exact ⟨controller, lower, underlay⟩
  · exact fun _ _ => id

/-- The first loop accepts exactly the inventories whose links have identities of
their own. -/
theorem enterAll_spec (links : List ObservedLink) :
    Decides ((∀ link ∈ links, link.Identified) ∧ (links.map ObservedLink.index).Nodup ∧
        (links.map ObservedLink.name).Nodup)
      (fun seen => seen.Tracks links) (links.foldlM enter ⟨.empty, .empty⟩) := by
  have separate : links.Pairwise ObservedLink.Apart ↔
      (links.map ObservedLink.index).Nodup ∧ (links.map ObservedLink.name).Nodup := by
    unfold List.Nodup
    rw [List.pairwise_map, List.pairwise_map, ← List.pairwise_and_iff]
    rfl
  have entered := Decides.foldlM (fun taken (seen : Seen) => seen.Tracks taken)
    (fun taken link => link.Identified ∧ ∀ other ∈ taken, other.Apart link)
    (fun _ _ link (_ : link ∈ links) tracks => enter_spec tracks link)
    (show Seen.Tracks ⟨.empty, .empty⟩ [] from ⟨.empty _, .empty _⟩)
  rw [allFit_pairwise, separate] at entered
  apply entered.congr
  · simp
  · exact fun _ _ => id

/-- What the links of an inventory state is which of them runs over which. -/
theorem states_iff_runsOver (indexes : byIndex.Indexes ObservedLink.index links)
    (distinct : (links.map ObservedLink.index).Nodup) (relationship : StackRelationship) :
    (∃ link ∈ links, States byIndex link relationship) ↔
      RunsOver links relationship.higher relationship.lower := by
  have listed (index : UInt32) : (byIndex.get? index).isSome ↔ Listed links index :=
    indexes.isSome_iff
  simp only [States, UnderController, OverLower, OverUnderlay, listed,
    indexes.get?_eq_some_iff distinct, RunsOver, and_or_left, exists_or]
  refine or_congr ?_ (or_congr ?_ ?_)
  · apply exists_congr
    intro link
    apply and_congr_right
    intro _
    simp only [and_assoc, @eq_comm _ relationship.lower]
  · apply exists_congr
    intro link
    apply and_congr_right
    intro _
    simp only [@eq_comm _ relationship.higher, and_left_comm]
  · apply exists_congr
    intro link
    apply and_congr_right
    intro _
    simp only [@eq_comm _ relationship.higher, and_left_comm]

/-- The second loop accepts exactly the inventories whose references hold, and
collects which links run over which. -/
theorem relateAll_spec (indexes : byIndex.Indexes ObservedLink.index links)
    (distinct : (links.map ObservedLink.index).Nodup) :
    Decides (∀ link ∈ links, link.Refers (Listed links))
      (fun relationships => ∀ relationship, relationship ∈ relationships ↔
        RunsOver links relationship.higher relationship.lower)
      (links.foldlM (relate byIndex) ∅) := by
  have listed : (fun index => (byIndex.get? index).isSome = true) = Listed links :=
    funext fun index => propext indexes.isSome_iff
  have related : Decides (AllFit (fun _ link => link.Refers (Listed links)) [] links)
      (fun relationships => ∀ relationship, relationship ∈ relationships ↔
        ∃ link ∈ links, States byIndex link relationship) (links.foldlM (relate byIndex) ∅) := by
    apply Decides.foldlM fun taken (relationships : Finset StackRelationship) => ∀ relationship,
      relationship ∈ relationships ↔ ∃ link ∈ taken, States byIndex link relationship
    · intro relationships taken link member tracked
      rw [← listed]
      apply (relate_spec indexes (indexes.present link member)).congr Iff.rfl
      intro _ next adds relationship
      rw [adds, tracked]
      simp only [List.mem_append, List.mem_singleton, or_and_right, exists_or, exists_eq_left]
    · simp
  apply related.congr
  · rw [allFit_const]
  · intro _ relationships collected relationship
    rw [collected, states_iff_runsOver indexes distinct]

/-- `from_observed` accepts exactly the valid inventories, and finds their links and
which of them runs directly over which. -/
theorem fromObserved_spec (links : List ObservedLink) :
    Decides (ValidInventory links)
      (fun topology => (∀ index, index ∈ topology.interfaces ↔ Listed links index) ∧
        ∀ relationship, relationship ∈ topology.relationships ↔
          RunsOver links relationship.higher relationship.lower)
      (fromObserved links) := by
  have checked : ValidInventory links ↔ ((∀ link ∈ links, link.Identified) ∧
      (links.map ObservedLink.index).Nodup ∧ (links.map ObservedLink.name).Nodup) ∧
        (∀ link ∈ links, link.Refers (Listed links)) ∧ True := by
    constructor
    · intro valid
      exact ⟨⟨valid.identified, valid.indices, valid.names⟩, valid.refers, trivial⟩
    · intro ⟨⟨identified, indices, names⟩, refers, _⟩
      exact ⟨identified, indices, names, refers⟩
  refine Decides.congr ?_ checked fun _ _ => id
  apply (enterAll_spec links).bind
  intro separate seen tracks
  apply (relateAll_spec tracks.byIndex separate.2.1).bind
  intro _ relationships collected
  refine ⟨trivial, fun index => ?_, collected⟩
  rw [List.mem_toFinset, OrderedMap.mem_keys_iff]
  exact tracks.byIndex.isSome_iff

end
end Topology

section

variable {links other : List ObservedLink}

/-- What runs over what depends only on which links are listed. -/
theorem runsOver_perm (perm : links.Perm other) (higher lower : UInt32) :
    RunsOver links higher lower ↔ RunsOver other higher lower := by
  simp only [RunsOver, Listed, perm.mem_iff]

/-- So does validity, up to the order of the links. -/
theorem ValidInventory.perm (valid : ValidInventory links) (perm : links.Perm other) :
    ValidInventory other where
  identified link member := valid.identified link (perm.mem_iff.mpr member)
  indices := (perm.map _).nodup_iff.mp valid.indices
  names := (perm.map _).nodup_iff.mp valid.names
  refers link member := by
    have listed : Listed links = Listed other := by
      funext index
      simp only [Listed, perm.mem_iff]
    exact listed ▸ valid.refers link (perm.mem_iff.mpr member)

/-- In a valid inventory a link runs over another listed link. -/
theorem ValidInventory.endpoints (valid : ValidInventory links) {higher lower : UInt32}
    (above : RunsOver links higher lower) :
    Listed links higher ∧ Listed links lower ∧ higher ≠ lower := by
  rcases above with ⟨link, member, rfl, controlled, _⟩ | ⟨link, member, rfl, stacked, named⟩ |
    ⟨link, member, rfl, vxlan, here, named, listed⟩
  · obtain ⟨listed, another⟩ := (valid.refers link member).controller higher controlled
    exact ⟨listed, ⟨link, member, rfl⟩, another⟩
  · obtain ⟨under, named', _, listed, another⟩ := (valid.refers link member).lower stacked
    cases named.symm.trans named'
    exact ⟨⟨link, member, rfl⟩, listed, another.symm⟩
  · refine ⟨⟨link, member, rfl⟩, listed, fun self => ?_⟩
    exact (valid.refers link member).underlay vxlan here (self ▸ named)

end

/-- **Inventories.** `from_observed` accepts exactly the valid inventories. It finds
their links and which of them runs directly over which, whatever the order of the
list; and every relationship is between two different links of the inventory. -/
theorem Topology.fromObserved_exact (links : List ObservedLink) :
    ((∃ topology, Topology.fromObserved links = .ok topology) ↔ ValidInventory links) ∧
    (∀ topology, Topology.fromObserved links = .ok topology →
      (∀ index, index ∈ topology.interfaces ↔ Listed links index) ∧
      (∀ relationship, relationship ∈ topology.relationships ↔
        RunsOver links relationship.higher relationship.lower) ∧
      ∀ relationship ∈ topology.relationships, relationship.higher ∈ topology.interfaces ∧
        relationship.lower ∈ topology.interfaces ∧ relationship.higher ≠ relationship.lower) ∧
    ∀ other, links.Perm other →
      (Topology.fromObserved other).toOption = (Topology.fromObserved links).toOption := by
  have decides := fromObserved_spec links
  refine ⟨decides.exists_iff, fun topology accepted => ?_, fun other perm => ?_⟩
  · obtain ⟨valid, interfaces, relationships⟩ := decides.of_eq_ok accepted
    refine ⟨interfaces, relationships, fun relationship member => ?_⟩
    rw [interfaces, interfaces]
    exact valid.endpoints ((relationships relationship).mp member)
  · have decides' := fromObserved_spec other
    cases result : Topology.fromObserved links with
    | error error =>
        rw [result] at decides
        cases result' : Topology.fromObserved other with
        | error error' => rfl
        | ok topology =>
            have valid := (decides'.of_eq_ok result').1
            exact absurd (valid.perm perm.symm) decides
    | ok topology =>
        obtain ⟨valid, interfaces, relationships⟩ := decides.of_eq_ok result
        obtain ⟨topology', result'⟩ := decides'.exists_iff.mpr (valid.perm perm)
        obtain ⟨_, interfaces', relationships'⟩ := decides'.of_eq_ok result'
        rw [result']
        refine congrArg some (Topology.ext ?_ ?_)
        · ext index
          rw [interfaces, interfaces', Listed, Listed]
          simp only [perm.mem_iff]
        · ext relationship
          rw [relationships, relationships', runsOver_perm perm]

/-- A bond. -/
def ObservedLink.bond : ObservedLink := ⟨9, "bond0", .bond, none, none, none, none⟩

/-- A bond with its member. -/
def ObservedLink.bonded : List ObservedLink :=
  [⟨3, "eth0", .other, some 9, none, none, none⟩, .bond]

/-- An interface in a bond is accepted, in either order of the links. -/
theorem Topology.fromObserved_exact_bonded :
    ∃ topology, Topology.fromObserved ObservedLink.bonded = .ok topology ∧
      9 ∈ topology.interfaces ∧ ⟨9, 3⟩ ∈ topology.relationships ∧
      (Topology.fromObserved ObservedLink.bonded.reverse).toOption = some topology := by
  obtain ⟨_, finds, reorders⟩ := Topology.fromObserved_exact ObservedLink.bonded
  have accepted : (Topology.fromObserved ObservedLink.bonded).toOption.isSome := by decide +kernel
  cases result : Topology.fromObserved ObservedLink.bonded with
  | error error =>
      rw [result] at accepted
      cases accepted
  | ok topology =>
      obtain ⟨interfaces, relationships, _⟩ := finds topology result
      refine ⟨topology, rfl, ?_, ?_, ?_⟩
      · exact (interfaces 9).mpr ⟨.bond, List.mem_cons_of_mem _ List.mem_cons_self, rfl⟩
      · refine (relationships ⟨9, 3⟩).mpr (Or.inl ⟨_, List.mem_cons_self, rfl, rfl, .bond, ?_⟩)
        exact ⟨List.mem_cons_of_mem _ List.mem_cons_self, rfl, Or.inl rfl⟩
      · rw [reorders _ (List.reverse_perm _).symm, result]
        rfl

end IfStack
