import Mathlib.Data.List.Basic

/-! # Object identifiers and bindings of the `agentx` crate

The program takes object identifiers, values and search ranges from the `agentx`
crate. The identifier type is a parameter here, with the operations the program
calls. What the program relies on is stated apart, as laws over the sequence of
sub-identifiers an identifier stands for once its prefix is expanded.
-/

namespace IfStack

/-- The operations of `agentx::encodings::ID` the program calls, with the order
its sorted map uses. -/
class AgentxId (ID : Type) extends Ord ID where
  ordered : Std.TransOrd ID
  /-- `ID::try_from` on a sub-identifier list, of a length the crate accepts. -/
  ofSubids : List UInt32 → ID
  /-- The `include` flag. -/
  included : ID → UInt8
  /-- The same identifier with another `include` flag. -/
  withIncluded : ID → UInt8 → ID
  isNull : ID → Bool

attribute [instance] AgentxId.ordered

/-- What the program relies on: identifiers are ordered as their expanded
sub-identifier sequences are lexicographically, whatever the `include` flag. -/
class LawfulAgentxId (ID : Type) [AgentxId ID] where
  components : ID → List UInt32
  compare_eq : ∀ first second : ID,
    compare first second = compare (components first) (components second)
  components_ofSubids : ∀ subids, subids.length ≤ 128 →
    components (AgentxId.ofSubids subids) = subids
  components_withIncluded : ∀ id flag, components (AgentxId.withIncluded id flag) = components id
  included_withIncluded : ∀ (id : ID) flag, AgentxId.included (AgentxId.withIncluded id flag) = flag

/-- Identifiers as bare sub-identifier lists with a flag, the smallest type that
meets the laws. -/
structure PlainId where
  subids : List UInt32
  flag : UInt8
deriving DecidableEq, Repr

namespace PlainId

instance : Ord PlainId where
  compare first second := compare first.subids second.subids

instance : Std.TransOrd PlainId where
  eq_swap {first second} :=
    @Std.OrientedCmp.eq_swap _ (compare : List UInt32 → List UInt32 → Ordering) _
      first.subids second.subids
  isLE_trans {first second third} :=
    @Std.TransCmp.isLE_trans _ (compare : List UInt32 → List UInt32 → Ordering) _
      first.subids second.subids third.subids

instance : AgentxId PlainId where
  ordered := inferInstance
  ofSubids subids := ⟨subids, 0⟩
  included := flag
  withIncluded id flag := ⟨id.subids, flag⟩
  isNull id := id.subids.isEmpty

instance : LawfulAgentxId PlainId where
  components := subids
  compare_eq _ _ := rfl
  components_ofSubids _ _ := rfl
  components_withIncluded _ _ := rfl
  included_withIncluded _ _ := rfl

end PlainId

/-- `agentx::encodings::Value`: the variants the program builds or inspects, and
one for the rest. -/
inductive Value (ID : Type)
  | integer (value : Int32)
  | objectIdentifier (value : ID)
  | noSuchObject
  | noSuchInstance
  | endOfMibView
  | other
deriving DecidableEq

/-- `agentx::encodings::VarBind`. -/
structure VarBind (ID : Type) where
  name : ID
  data : Value ID
deriving DecidableEq

/-- `agentx::encodings::SearchRange`; `stop` is its `end`. -/
structure SearchRange (ID : Type) where
  start : ID
  stop : ID

end IfStack
