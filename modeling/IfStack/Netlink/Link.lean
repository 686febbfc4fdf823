import IfStack.Foundation.Fold
import IfStack.Netlink.Decode
import Mathlib.Data.List.Perm.Basic
import Mathlib.Logic.Relation

/-! # Link messages

`decode_link` accepts a link message exactly when it has a name and no field of it is
given twice. What it reports are the fields, wherever they stand: the order of attributes,
their distribution over `LinkInfo` lists and attributes of other kinds make no difference.
-/

namespace IfStack

open Foundation

/-- The slots of `decode_link`. -/
inductive LinkSlot
  | name
  | controller
  | lower
  | lowerNetnsid
  | kind
  | data
deriving DecidableEq

/-- A value for a slot. -/
inductive LinkField
  | name (value : String)
  | controller (value : UInt32)
  | lower (value : UInt32)
  | lowerNetnsid (value : Int32)
  | kind (value : InfoKind)
  | data (value : InfoData)

/-- The slot that a value is for. -/
def LinkField.slot : LinkField → LinkSlot
  | .name _ => .name
  | .controller _ => .controller
  | .lower _ => .lower
  | .lowerNetnsid _ => .lowerNetnsid
  | .kind _ => .kind
  | .data _ => .data

/-- The field of an element of a `LinkInfo` attribute. -/
def LinkInfo.fields : LinkInfo → List LinkField
  | .kind value => [.kind value]
  | .data value => [.data value]
  | .other => []

/-- The fields of an attribute. -/
def LinkAttribute.fields : LinkAttribute → List LinkField
  | .ifName value => [.name value]
  | .controller value => [.controller value]
  | .link value => [.lower value]
  | .linkNetNsId value => [.lowerNetnsid value]
  | .linkInfo infos => infos.flatMap LinkInfo.fields
  | .other => []

/-- The fields of a link message, over all its attributes. -/
def LinkMessage.fields (message : LinkMessage) : List LinkField :=
  message.attributes.flatMap LinkAttribute.fields

/-- The fields for a slot. -/
def fieldsFor (slot : LinkSlot) (fields : List LinkField) : List LinkField :=
  fields.filter (·.slot = slot)

/-- The underlay in an attribute of VXLAN data. -/
def InfoVxlan.link? : InfoVxlan → Option UInt32
  | .link value => some value
  | .other => none

/-- The underlays that data names, which only VXLAN data does. -/
def InfoData.underlays : InfoData → List UInt32
  | .vxlan attributes => attributes.filterMap InfoVxlan.link?
  | .other => []

/-- The underlays in a value, which only data has. -/
def LinkField.underlays : LinkField → List UInt32
  | .data value => value.underlays
  | _ => []

/-- The underlays that the data of a link names. -/
def underlaysOf (fields : List LinkField) : List UInt32 := fields.flatMap LinkField.underlays

/-- No slot is given twice. -/
def Single (fields : List LinkField) : Prop := ∀ slot, (fieldsFor slot fields).length ≤ 1

/-- A link message is unambiguous: it has one name, no slot twice, and no two underlays in
its VXLAN data. -/
structure Unambiguous (message : LinkMessage) : Prop where
  name : (fieldsFor .name message.fields).length = 1
  single : Single message.fields
  underlay : (underlaysOf message.fields).length ≤ 1

/-- The kind that a link reports for the kind of its message: the one of that name, and
`other` where there is none or it is not supported. -/
inductive StandsFor : Option InfoKind → LinkKind → Prop
  | bond : StandsFor (some .bond) .bond
  | bridge : StandsFor (some .bridge) .bridge
  | vlan : StandsFor (some .vlan) .vlan
  | macVlan : StandsFor (some .macVlan) .macVlan
  | ipVlan : StandsFor (some .ipVlan) .ipVlan
  | macVtap : StandsFor (some .macVtap) .macVtap
  | vxlan : StandsFor (some .vxlan) .vxlan
  | veth : StandsFor (some .veth) .veth
  | unsupported : StandsFor (some .other) .other
  | absent : StandsFor none .other

/-- A kind that was found stands for one kind of link. -/
theorem StandsFor.unique {found : Option InfoKind} {kind kind' : LinkKind}
    (first : StandsFor found kind) (second : StandsFor found kind') : kind = kind' := by
  cases first <;> cases second <;> rfl

/-- A link reports the fields of a message. -/
structure Describes (message : LinkMessage) (link : ObservedLink) : Prop where
  index : link.index = message.index
  name : fieldsFor .name message.fields = [.name link.name]
  controller : fieldsFor .controller message.fields = link.controller.toList.map .controller
  lower : fieldsFor .lower message.fields = link.lower.toList.map .lower
  lowerNetnsid :
    fieldsFor .lowerNetnsid message.fields = link.lowerNetnsid.toList.map .lowerNetnsid
  kind : ∃ kind : Option InfoKind, fieldsFor .kind message.fields = kind.toList.map .kind ∧
    StandsFor kind link.kind
  underlay : underlaysOf message.fields = link.vxlanLower.toList

namespace LinkSlots

/-- The field that a slot holds. -/
def held (slots : LinkSlots) : LinkSlot → List LinkField
  | .name => slots.name.toList.map .name
  | .controller => slots.controller.toList.map .controller
  | .lower => slots.lower.toList.map .lower
  | .lowerNetnsid => slots.lowerNetnsid.toList.map .lowerNetnsid
  | .kind => slots.kind.toList.map .kind
  | .data => slots.data.toList.map .data

/-- One field is taken. -/
def takeField (slots : LinkSlots) : LinkField → Except Error LinkSlots
  | .name value => slots.takeAttribute (.ifName value)
  | .controller value => slots.takeAttribute (.controller value)
  | .lower value => slots.takeAttribute (.link value)
  | .lowerNetnsid value => slots.takeAttribute (.linkNetNsId value)
  | .kind value => slots.takeInfo (.kind value)
  | .data value => slots.takeInfo (.data value)

/-- The elements of a `LinkInfo` attribute are taken as their fields. -/
theorem takeInfo_eq (slots : LinkSlots) (info : LinkInfo) :
    slots.takeInfo info = info.fields.foldlM takeField slots := by
  cases info with
  | kind value => exact (bind_pure (slots.takeInfo (.kind value))).symm
  | data value => exact (bind_pure (slots.takeInfo (.data value))).symm
  | other => rfl

/-- An attribute is taken field by field. -/
theorem takeAttribute_eq (slots : LinkSlots) (taken : LinkAttribute) :
    slots.takeAttribute taken = taken.fields.foldlM takeField slots := by
  cases taken with
  | ifName value => exact (bind_pure (slots.takeAttribute (.ifName value))).symm
  | controller value => exact (bind_pure (slots.takeAttribute (.controller value))).symm
  | link value => exact (bind_pure (slots.takeAttribute (.link value))).symm
  | linkNetNsId value => exact (bind_pure (slots.takeAttribute (.linkNetNsId value))).symm
  | linkInfo infos =>
      change infos.foldlM takeInfo slots = (infos.flatMap LinkInfo.fields).foldlM takeField slots
      rw [foldlM_flatMap]
      congr 1
      funext slots info
      exact takeInfo_eq slots info
  | other => rfl

/-- The slots are filled field by field. -/
theorem takeAttributes_eq (message : LinkMessage) (slots : LinkSlots) :
    message.attributes.foldlM takeAttribute slots = message.fields.foldlM takeField slots := by
  unfold LinkMessage.fields
  rw [foldlM_flatMap]
  congr 1
  funext slots taken
  exact takeAttribute_eq slots taken

/-- A value is set once: it fills the slot of its field, or the slot is full. -/
theorem setOnce_spec {α : Type} {slots : LinkSlots} {field : LinkField} {slot : Option α}
    {wrap : α → LinkField} {value : α} {put : Option α → LinkSlots} (text : String)
    (own : slots.held field.slot = slot.toList.map wrap)
    (filled : slot = none → ∀ other,
      (put (some value)).held other = slots.held other ++ fieldsFor other [field]) :
    Decides (slots.held field.slot = [])
      (fun after => ∀ other, after.held other = slots.held other ++ fieldsFor other [field])
      (setOnce slot value text >>= fun slot => .ok (put slot)) := by
  rw [own]
  cases slot with
  | none => exact ⟨rfl, filled rfl⟩
  | some earlier => exact List.cons_ne_nil _ _

/-- A field fills its empty slot and leaves the others, or its slot is full. -/
theorem takeField_spec (slots : LinkSlots) (field : LinkField) :
    Decides (slots.held field.slot = [])
      (fun after => ∀ slot, after.held slot = slots.held slot ++ fieldsFor slot [field])
      (slots.takeField field) := by
  cases field with
  | name value =>
      apply setOnce_spec "interface name" rfl
      intro empty other
      cases other <;> simp [held, fieldsFor, LinkField.slot, empty]
  | controller value =>
      apply setOnce_spec "controller" rfl
      intro empty other
      cases other <;> simp [held, fieldsFor, LinkField.slot, empty]
  | lower value =>
      apply setOnce_spec "lower interface" rfl
      intro empty other
      cases other <;> simp [held, fieldsFor, LinkField.slot, empty]
  | lowerNetnsid value =>
      apply setOnce_spec "lower network namespace" rfl
      intro empty other
      cases other <;> simp [held, fieldsFor, LinkField.slot, empty]
  | kind value =>
      apply setOnce_spec "link kind" rfl
      intro empty other
      cases other <;> simp [held, fieldsFor, LinkField.slot, empty]
  | data value =>
      apply setOnce_spec "link data" rfl
      intro empty other
      cases other <;> simp [held, fieldsFor, LinkField.slot, empty]

/-- A slot holds at most one field. -/
theorem length_held_le (slots : LinkSlots) (slot : LinkSlot) : (slots.held slot).length ≤ 1 := by
  cases slot <;> unfold held <;> rw [List.length_map] <;> exact Option.length_toList_le

end LinkSlots

/-- The fields for a slot, in two parts. -/
theorem fieldsFor_append (slot : LinkSlot) (fields more : List LinkField) :
    fieldsFor slot (fields ++ more) = fieldsFor slot fields ++ fieldsFor slot more :=
  List.filter_append ..

/-- What is given once is given at most once before that. -/
theorem Single.front (fields more : List LinkField) (single : Single (fields ++ more)) :
    Single fields := by
  intro slot
  have short := single slot
  rw [fieldsFor_append, List.length_append] at short
  omega

/-- The slots hold the fields taken so far. -/
def Holds (fields : List LinkField) (slots : LinkSlots) : Prop :=
  ∀ slot, slots.held slot = fieldsFor slot fields

/-- A field is taken where its slot is not given before. -/
theorem takeField_decides {taken : List LinkField} {slots : LinkSlots} (holds : Holds taken slots)
    (field : LinkField) :
    Decides (Single (taken ++ [field])) (Holds (taken ++ [field])) (slots.takeField field) := by
  apply (slots.takeField_spec field).congr
  · constructor
    · intro single
      have short := single field.slot
      have own : fieldsFor field.slot [field] = [field] := by simp [fieldsFor]
      rw [fieldsFor_append, own, List.length_append, List.length_singleton,
        ← holds field.slot] at short
      exact List.length_eq_zero_iff.mp (by omega)
    · intro empty slot
      rw [fieldsFor_append, List.length_append, ← holds slot]
      by_cases same : field.slot = slot
      · subst same
        rw [empty, List.length_nil, Nat.zero_add]
        exact List.length_filter_le ..
      · have other : fieldsFor slot [field] = [] := by simp [fieldsFor, same]
        rw [other]
        exact slots.length_held_le slot
  · intro _ after filled slot
    rw [filled slot, holds slot, fieldsFor_append]

/-- The attributes of a message fill the slots, if none is given twice. -/
theorem takeFields_decides (fields : List LinkField) :
    Decides (Single fields) (Holds fields)
      (fields.foldlM LinkSlots.takeField LinkSlots.empty) := by
  have none : Holds [] LinkSlots.empty := by
    intro slot
    cases slot <;> rfl
  have single : Single [] := fun _ => Nat.zero_le 1
  have filled : Decides (AllFit (fun taken field => Single (taken ++ [field])) [] fields)
      (Holds ([] ++ fields)) (fields.foldlM LinkSlots.takeField LinkSlots.empty) :=
    Decides.foldlM Holds _ (fun _ _ field _ holds => takeField_decides holds field) none
  exact filled.congr (allFit_whole Single.front single).symm fun _ _ holds => holds

/-- A value is set where there is none before it. -/
theorem setOnce_decides {α : Type} {slot : Option α} {values : List α}
    (held : values = slot.toList) (value : α) (field : String) :
    Decides ((values ++ [value]).length ≤ 1) (fun slot => values ++ [value] = slot.toList)
      (setOnce slot value field) := by
  subst held
  cases slot with
  | none => exact ⟨Nat.le_refl _, rfl⟩
  | some earlier =>
      intro short
      have long : ([earlier] ++ [value]).length = 2 := rfl
      rw [Option.toList_some] at short
      omega

/-- VXLAN data names at most one underlay. -/
theorem vxlanUnderlay_decides (attributes : List InfoVxlan) :
    Decides ((attributes.filterMap InfoVxlan.link?).length ≤ 1)
      (fun underlay => attributes.filterMap InfoVxlan.link? = underlay.toList)
      (vxlanUnderlay attributes) := by
  have found : Decides (AllFit (fun taken item =>
        ((taken ++ [item]).filterMap InfoVxlan.link?).length ≤ 1) [] attributes)
      (fun underlay => ([] ++ attributes).filterMap InfoVxlan.link? = underlay.toList)
      (vxlanUnderlay attributes) := by
    apply Decides.foldlM (fun taken underlay =>
      taken.filterMap InfoVxlan.link? = Option.toList underlay)
    · intro underlay taken item _ held
      rw [List.filterMap_append]
      cases item with
      | link value => exact setOnce_decides held value "VXLAN underlay"
      | other =>
          have short : (taken.filterMap InfoVxlan.link?).length ≤ 1 :=
            held ▸ Option.length_toList_le
          rw [show [InfoVxlan.other].filterMap InfoVxlan.link? = [] from rfl, List.append_nil]
          exact ⟨short, held⟩
    · rfl
  have fits := @allFit_whole _ (fun items => (items.filterMap InfoVxlan.link?).length ≤ 1)
    (fun taken items short => by
      rw [List.filterMap_append, List.length_append] at short
      omega) [] attributes (Nat.zero_le 1)
  exact found.congr fits.symm fun _ _ held => held

/-- The underlays, in two parts. -/
theorem underlaysOf_append (fields more : List LinkField) :
    underlaysOf (fields ++ more) = underlaysOf fields ++ underlaysOf more :=
  List.flatMap_append ..

/-- Only data names underlays. -/
theorem underlaysOf_eq (fields : List LinkField) :
    underlaysOf fields = underlaysOf (fieldsFor .data fields) := by
  induction fields with
  | nil => rfl
  | cons field fields ih =>
      rw [← List.singleton_append, fieldsFor_append, underlaysOf_append, underlaysOf_append, ih]
      cases field <;> rfl

/-- The underlays that a slot for data names. -/
theorem Holds.underlays {fields : List LinkField} {slots : LinkSlots}
    (holds : Holds fields slots) :
    underlaysOf fields = slots.data.toList.flatMap InfoData.underlays := by
  rw [underlaysOf_eq, ← holds .data, LinkSlots.held, underlaysOf, List.flatMap_map]
  rfl

/-- The kind that `decode_link` reports is the one that the kind of the message stands for. -/
theorem standsFor_ofInfoKind (kind : Option InfoKind) : StandsFor kind (.ofInfoKind kind) := by
  rcases kind with _ | kind
  · exact .absent
  · cases kind <;> constructor

/-- The underlay in a slot for data. -/
def underlayIn : Option InfoData → Except Error (Option UInt32)
  | some (.vxlan attributes) => vxlanUnderlay attributes
  | _ => .ok none

/-- The link that the slots say. -/
def report (index : UInt32) (slots : LinkSlots) (vxlanLower : Option UInt32) :
    Except Error ObservedLink :=
  match slots.name with
  | none => .error (.invalid "interface has no name")
  | some name => .ok {
      index, name, vxlanLower
      kind := .ofInfoKind slots.kind
      controller := slots.controller
      lower := slots.lower
      lowerNetnsid := slots.lowerNetnsid }

/-- The three parts of `decode_link`. -/
theorem decodeLink_eq (message : LinkMessage) : decodeLink message =
    (message.fields.foldlM LinkSlots.takeField .empty >>= fun slots =>
      underlayIn slots.data >>= fun lower => report message.index slots lower) := by
  unfold decodeLink
  rw [LinkSlots.takeAttributes_eq]
  apply bind_congr
  intro slots
  rcases slots.data with _ | attributes | _ <;> rfl

/-- `underlay_in` finds the underlay exactly when there is at most one. -/
theorem underlayIn_decides {fields : List LinkField} {slots : LinkSlots}
    (holds : Holds fields slots) :
    Decides ((underlaysOf fields).length ≤ 1) (fun lower => underlaysOf fields = lower.toList)
      (underlayIn slots.data) := by
  rw [holds.underlays]
  rcases slots.data with _ | attributes | _
  · exact ⟨Nat.zero_le 1, rfl⟩
  · rw [Option.toList_some, List.flatMap_singleton]
    exact vxlanUnderlay_decides attributes
  · exact ⟨Nat.zero_le 1, rfl⟩

/-- `report` describes the link exactly when it has one name. -/
theorem report_decides {message : LinkMessage} {slots : LinkSlots} {lower : Option UInt32}
    (holds : Holds message.fields slots) (underlay : underlaysOf message.fields = lower.toList) :
    Decides ((fieldsFor .name message.fields).length = 1) (Describes message)
      (report message.index slots lower) := by
  have named := holds .name
  unfold report
  split <;> rename_i name
  · rw [← named, LinkSlots.held, name]
    exact Nat.zero_ne_one
  · rw [LinkSlots.held, name] at named
    refine ⟨congrArg List.length named.symm, ?_⟩
    exact {
      index := rfl
      name := named.symm
      controller := (holds .controller).symm
      lower := (holds .lower).symm
      lowerNetnsid := (holds .lowerNetnsid).symm
      kind := ⟨slots.kind, (holds .kind).symm, standsFor_ofInfoKind _⟩
      underlay }

/-- A link message decodes exactly when it is unambiguous, to the link with its fields. -/
theorem decodeLink_decides (message : LinkMessage) :
    Decides (Unambiguous message) (Describes message) (decodeLink message) := by
  rw [decodeLink_eq]
  have decides := (takeFields_decides message.fields).bind fun _ _ holds =>
    (underlayIn_decides holds).bind fun _ _ underlay => report_decides holds underlay
  apply decides.congr
  · constructor
    · intro unambiguous
      exact ⟨unambiguous.single, unambiguous.underlay, unambiguous.name⟩
    · intro ⟨single, underlay, name⟩
      exact ⟨name, single, underlay⟩
  · exact fun _ _ describes => describes

/-- Fields that a link message may have for others: the same for each slot but that for
data, and data that names the same underlays, in any order. -/
structure Alike (first second : List LinkField) : Prop where
  slots : ∀ slot, slot ≠ .data → (fieldsFor slot first).Perm (fieldsFor slot second)
  data : (fieldsFor .data first).length = (fieldsFor .data second).length
  underlays : (underlaysOf first).Perm (underlaysOf second)

namespace Alike

variable {first second third : List LinkField}

/-- Fields are alike themselves. -/
theorem refl (fields : List LinkField) : Alike fields fields :=
  ⟨fun _ _ => .refl _, rfl, .refl _⟩

/-- Being alike does not depend on which is first. -/
theorem symm (alike : Alike first second) : Alike second first :=
  ⟨fun slot other => (alike.slots slot other).symm, alike.data.symm, alike.underlays.symm⟩

/-- Alike fields may be replaced in turn. -/
theorem trans (alike : Alike first second) (alike' : Alike second third) : Alike first third where
  slots slot other := (alike.slots slot other).trans (alike'.slots slot other)
  data := alike.data.trans alike'.data
  underlays := alike.underlays.trans alike'.underlays

/-- Fields in another order are alike. -/
theorem of_perm (same : first.Perm second) : Alike first second where
  slots _ _ := same.filter _
  data := (same.filter _).length_eq
  underlays := same.flatMap_right _

/-- Data stands for other data with the same underlays. -/
theorem of_data {data data' : InfoData} (same : data.underlays.Perm data'.underlays)
    (front back : List LinkField) :
    Alike (front ++ .data data :: back) (front ++ .data data' :: back) where
  slots _ other := by
    rw [← List.singleton_append, ← @List.singleton_append _ (LinkField.data data')]
    simp [fieldsFor, LinkField.slot, other.symm]
  data := by simp [fieldsFor, LinkField.slot]
  underlays := by
    simp only [underlaysOf, List.flatMap_append, List.flatMap_cons]
    exact (same.append_right _).append_left _

/-- Alike fields fill a slot equally often. -/
theorem length_eq (alike : Alike first second) (slot : LinkSlot) :
    (fieldsFor slot first).length = (fieldsFor slot second).length := by
  by_cases data : slot = .data
  · rw [data]
    exact alike.data
  · exact (alike.slots slot data).length_eq

end Alike

/-- A list of at most one value has one order. -/
theorem eq_of_perm_short {α : Type} {first second : List α} (short : first.length ≤ 1)
    (same : first.Perm second) : second = first := by
  cases first with
  | nil => exact same.symm.eq_nil
  | cons value rest =>
      have alone : rest = [] := by
        rw [List.length_cons] at short
        exact List.length_eq_zero_iff.mp (by omega)
      subst alone
      exact List.perm_singleton.mp same.symm

/-- A slot holds one value. -/
theorem held_inj {α : Type} {wrap : α → LinkField} {value value' : Option α}
    {fields : List LinkField}
    (injective : ∀ first second, wrap first = wrap second → first = second)
    (held : fields = value.toList.map wrap) (held' : fields = value'.toList.map wrap) :
    value = value' := by
  rw [held] at held'
  rcases value with _ | value <;> rcases value' with _ | value'
  · rfl
  · cases held'
  · cases held'
  · exact congrArg some (injective value value' (List.cons.inj held').1)

variable {message message' : LinkMessage} {link link' : ObservedLink}

/-- A message is described by one link. -/
theorem Describes.unique (first : Describes message link) (second : Describes message link') :
    link = link' := by
  obtain ⟨kind, kinds, stands⟩ := first.kind
  obtain ⟨kind', kinds', stands'⟩ := second.kind
  have kind := held_inj (fun _ _ => LinkField.kind.inj) kinds kinds'
  subst kind
  have name := LinkField.name.inj (List.cons.inj (first.name.symm.trans second.name)).1
  have controller :=
    held_inj (fun _ _ => LinkField.controller.inj) first.controller second.controller
  have lower := held_inj (fun _ _ => LinkField.lower.inj) first.lower second.lower
  have lowerNetnsid :=
    held_inj (fun _ _ => LinkField.lowerNetnsid.inj) first.lowerNetnsid second.lowerNetnsid
  have underlay : link.vxlanLower = link'.vxlanLower := by
    have both := congrArg List.head? (first.underlay.symm.trans second.underlay)
    rwa [Option.head?_toList, Option.head?_toList] at both
  have index := first.index.trans second.index.symm
  cases link
  cases link'
  rw [ObservedLink.mk.injEq]
  exact ⟨index, name, stands.unique stands', controller, lower, lowerNetnsid, underlay⟩

/-- What describes a message describes one with fields like its own. -/
theorem Describes.alike (describes : Describes message link)
    (index : message.index = message'.index) (alike : Alike message.fields message'.fields) :
    Describes message' link := by
  have held {α : Type} {wrap : α → LinkField} {value : Option α} {slot : LinkSlot}
      (other : slot ≠ .data) (held : fieldsFor slot message.fields = value.toList.map wrap) :
      fieldsFor slot message'.fields = value.toList.map wrap := by
    rw [← held]
    apply eq_of_perm_short _ (alike.slots slot other)
    rw [held, List.length_map]
    exact Option.length_toList_le
  obtain ⟨kind, kinds, stands⟩ := describes.kind
  exact {
    index := describes.index.trans index
    name := @held _ LinkField.name (some link.name) .name (by decide) describes.name
    controller := held (by decide) describes.controller
    lower := held (by decide) describes.lower
    lowerNetnsid := held (by decide) describes.lowerNetnsid
    kind := ⟨kind, held (by decide) kinds, stands⟩
    underlay := by
      rw [← describes.underlay]
      apply eq_of_perm_short _ alike.underlays
      rw [describes.underlay]
      exact Option.length_toList_le }

/-- Alike messages are unambiguous alike. -/
theorem Unambiguous.alike (unambiguous : Unambiguous message)
    (alike : Alike message.fields message'.fields) : Unambiguous message' where
  name := (alike.length_eq .name).symm.trans unambiguous.name
  single slot := (alike.length_eq slot).symm.trans_le (unambiguous.single slot)
  underlay := alike.underlays.length_eq.symm.trans_le unambiguous.underlay

/-- Messages with fields that are alike decode alike. -/
theorem decodeLink_alike (index : message.index = message'.index)
    (alike : Alike message.fields message'.fields) :
    (decodeLink message).toOption = (decodeLink message').toOption := by
  have decides := decodeLink_decides message
  have decides' := decodeLink_decides message'
  cases decoded : decodeLink message with
  | error error =>
      rw [decoded] at decides
      cases decoded' : decodeLink message' with
      | error error' => rfl
      | ok link' =>
          rw [decoded'] at decides'
          exact absurd (decides'.1.alike alike.symm) decides
  | ok link =>
      rw [decoded] at decides
      have unambiguous := decides.1.alike alike
      cases decoded' : decodeLink message' with
      | error error' =>
          rw [decoded'] at decides'
          exact absurd unambiguous decides'
      | ok link' =>
          rw [decoded'] at decides'
          exact congrArg some ((decides.2.alike index alike).unique decides'.2)

/-- Attributes in another arrangement: reordered, a `LinkInfo` list split in two,
unrelated ones inserted, or the same done inside a `LinkInfo` list or inside VXLAN data. -/
inductive Rearranges : List LinkAttribute → List LinkAttribute → Prop
  | reorder {attributes attributes' : List LinkAttribute} :
      attributes.Perm attributes' → Rearranges attributes attributes'
  | split {front back : List LinkAttribute} {infos infos' : List LinkInfo} :
      Rearranges (front ++ .linkInfo (infos ++ infos') :: back)
        (front ++ .linkInfo infos :: .linkInfo infos' :: back)
  | insert {front back : List LinkAttribute} {unrelated : LinkAttribute} :
      unrelated.fields = [] → Rearranges (front ++ back) (front ++ unrelated :: back)
  | reorderInfo {front back : List LinkAttribute} {infos infos' : List LinkInfo} :
      infos.Perm infos' →
      Rearranges (front ++ .linkInfo infos :: back) (front ++ .linkInfo infos' :: back)
  | insertInfo {front back : List LinkAttribute} {infos infos' : List LinkInfo} :
      Rearranges (front ++ .linkInfo (infos ++ infos') :: back)
        (front ++ .linkInfo (infos ++ .other :: infos') :: back)
  | vxlan {front back : List LinkAttribute} {infos infos' : List LinkInfo}
      {items items' : List InfoVxlan} :
      (items.filterMap InfoVxlan.link?).Perm (items'.filterMap InfoVxlan.link?) →
      Rearranges (front ++ .linkInfo (infos ++ .data (.vxlan items) :: infos') :: back)
        (front ++ .linkInfo (infos ++ .data (.vxlan items') :: infos') :: back)

/-- Rearranging attributes leaves the fields as they are. -/
theorem Rearranges.alike {attributes attributes' : List LinkAttribute}
    (rearranges : Rearranges attributes attributes') :
    Alike (attributes.flatMap LinkAttribute.fields) (attributes'.flatMap LinkAttribute.fields) := by
  cases rearranges with
  | reorder same => exact .of_perm (same.flatMap_right _)
  | split =>
      simp only [List.flatMap_append, List.flatMap_cons, LinkAttribute.fields, List.append_assoc]
      exact .refl _
  | insert unrelated =>
      simp only [List.flatMap_append, List.flatMap_cons, unrelated, List.nil_append]
      exact .refl _
  | reorderInfo same =>
      simp only [List.flatMap_append, List.flatMap_cons, LinkAttribute.fields]
      apply Alike.of_perm
      exact ((same.flatMap_right _).append_right _).append_left _
  | insertInfo =>
      simp only [List.flatMap_append, List.flatMap_cons, LinkAttribute.fields, LinkInfo.fields,
        List.nil_append]
      exact .refl _
  | @vxlan front back infos infos' items items' same =>
      have alike := @Alike.of_data (.vxlan items) (.vxlan items') same
        (front.flatMap LinkAttribute.fields ++ infos.flatMap LinkInfo.fields)
        (infos'.flatMap LinkInfo.fields ++ back.flatMap LinkAttribute.fields)
      simp only [List.flatMap_append, List.flatMap_cons, LinkAttribute.fields, LinkInfo.fields,
        List.append_assoc, List.cons_append, List.nil_append] at alike ⊢
      exact alike

/-- **Link messages.** A link message decodes exactly when it is unambiguous, and then to
the link with its fields. Attributes in another arrangement give the same link, or none
either. -/
theorem decodeLink_exact (message : LinkMessage) :
    ((∃ link, decodeLink message = .ok link) ↔ Unambiguous message) ∧
    (∀ link, decodeLink message = .ok link → Describes message link) ∧
    ∀ attributes, Relation.EqvGen Rearranges message.attributes attributes →
      (decodeLink message).toOption = (decodeLink { message with attributes }).toOption := by
  have decides := decodeLink_decides message
  refine ⟨decides.exists_iff, fun _ decoded => (decides.of_eq_ok decoded).2, ?_⟩
  intro attributes rearranged
  have alike : ∀ first second, Relation.EqvGen Rearranges first second →
      Alike (first.flatMap LinkAttribute.fields) (second.flatMap LinkAttribute.fields) := by
    intro first second rearranged
    induction rearranged with
    | rel _ _ rearranges => exact rearranges.alike
    | refl _ => exact .refl _
    | symm _ _ _ ih => exact ih.symm
    | trans _ _ _ _ _ ih ih' => exact ih.trans ih'
  exact decodeLink_alike rfl (alike _ _ rearranged)

/-- A VXLAN with its data before its kind, in two `LinkInfo` lists. -/
def scatteredVxlan : LinkMessage where
  index := 4
  attributes := [.linkInfo [.data (.vxlan [.other, .link 2])], .controller 3, .other,
    .ifName "vxlan0", .linkInfo [.other, .kind .vxlan]]

/-- A link with no more than a name and a kind. -/
def linkOf (kind : InfoKind) : LinkMessage := ⟨5, [.linkInfo [.kind kind], .ifName "link0"]⟩

/-- The VXLAN decodes from any order of its attributes, and links of all kinds to their own. -/
theorem decodeLink_exact_kinds :
    decodeLink scatteredVxlan = .ok ⟨4, "vxlan0", .vxlan, some 3, none, none, some 2⟩ ∧
    Unambiguous scatteredVxlan ∧
    (decodeLink scatteredVxlan).toOption = (decodeLink { scatteredVxlan with
      attributes := scatteredVxlan.attributes.reverse }).toOption ∧
    ∀ pair ∈ [(InfoKind.bond, LinkKind.bond), (.bridge, .bridge), (.vlan, .vlan),
        (.macVlan, .macVlan), (.ipVlan, .ipVlan), (.macVtap, .macVtap), (.vxlan, .vxlan),
        (.veth, .veth), (.other, .other)],
      decodeLink (linkOf pair.1) = .ok ⟨5, "link0", pair.2, none, none, none, none⟩ ∧
        Describes (linkOf pair.1) ⟨5, "link0", pair.2, none, none, none, none⟩ := by
  refine ⟨rfl, (decodeLink_exact scatteredVxlan).1.mp ⟨_, rfl⟩, (decodeLink_exact _).2.2 _
    (.rel _ _ (.reorder (List.reverse_perm _).symm)), fun pair listed => ?_⟩
  have decoded : decodeLink (linkOf pair.1) =
      .ok ⟨5, "link0", pair.2, none, none, none, none⟩ := by
    revert pair
    decide
  exact ⟨decoded, (decodeLink_exact _).2.1 _ decoded⟩

end IfStack
