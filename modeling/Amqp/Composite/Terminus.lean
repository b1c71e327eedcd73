import Amqp.Composite.Descriptor
import Amqp.Composite.Fields

/-!
# Link termini

A link runs from a `Source`, from which the receiving end gets messages, to a `Target`, to which the
sending end delivers them.
-/

namespace Amqp

/-- Where the messages of a link come from. -/
structure Source where
  address : Option String := none
  durable : Option UInt32 := none
  expiryPolicy : Option String := none
  timeout : Option UInt32 := none
  dynamic : Bool := false
  dynamicNodeProperties : Option Entries := none
  distributionMode : Option String := none
  filter : Option Entries := none
  defaultOutcome : Option Value := none
  outcomes : Option (List String) := none
  capabilities : Option (List String) := none
deriving Inhabited

namespace Source

/-- The source as a value. -/
def toValue (s : Source) : Value :=
  composite Descriptor.source
    [.ofOption .string s.address, .ofOption .uint s.durable, .ofOption .symbol s.expiryPolicy,
      .ofOption .uint s.timeout, .ofFlag s.dynamic, .ofOption .map s.dynamicNodeProperties,
      .ofOption .symbol s.distributionMode, .ofOption .map s.filter,
      .ofOption id s.defaultOutcome, .ofOption .symbols s.outcomes,
      .ofOption .symbols s.capabilities]

/-- The fields of a source. -/
def fields : Fields Source := do
  let address ← Fields.optional "address" Fields.text
  let durable ← Fields.optional "durable" Fields.uint
  let expiryPolicy ← Fields.optional "expiry_policy" Fields.text
  let timeout ← Fields.optional "timeout" Fields.uint
  let dynamic ← Fields.flag "dynamic"
  let dynamicNodeProperties ← Fields.optional "dynamic_node_properties" Fields.map
  let distributionMode ← Fields.optional "distribution_mode" Fields.text
  let filter ← Fields.optional "filter" Fields.map
  let defaultOutcome ← Fields.optional "default_outcome" Fields.any
  let outcomes ← Fields.optional "outcomes" Fields.symbols
  let capabilities ← Fields.optional "capabilities" Fields.symbols
  return { address, durable, expiryPolicy, timeout, dynamic, dynamicNodeProperties,
           distributionMode, filter, defaultOutcome, outcomes, capabilities }

/-- The source in a value. -/
def ofValue (v : Value) : Except Fault Source := readComposite "source" Descriptor.source fields v

end Source

/-- Where the messages of a link go to. -/
structure Target where
  address : Option String := none
  durable : Option UInt32 := none
  expiryPolicy : Option String := none
  timeout : Option UInt32 := none
  dynamic : Bool := false
  dynamicNodeProperties : Option Entries := none
  capabilities : Option (List String) := none
deriving Inhabited

namespace Target

/-- The target as a value. -/
def toValue (t : Target) : Value :=
  composite Descriptor.target
    [.ofOption .string t.address, .ofOption .uint t.durable, .ofOption .symbol t.expiryPolicy,
      .ofOption .uint t.timeout, .ofFlag t.dynamic, .ofOption .map t.dynamicNodeProperties,
      .ofOption .symbols t.capabilities]

/-- The fields of a target. -/
def fields : Fields Target := do
  let address ← Fields.optional "address" Fields.text
  let durable ← Fields.optional "durable" Fields.uint
  let expiryPolicy ← Fields.optional "expiry_policy" Fields.text
  let timeout ← Fields.optional "timeout" Fields.uint
  let dynamic ← Fields.flag "dynamic"
  let dynamicNodeProperties ← Fields.optional "dynamic_node_properties" Fields.map
  let capabilities ← Fields.optional "capabilities" Fields.symbols
  return { address, durable, expiryPolicy, timeout, dynamic, dynamicNodeProperties, capabilities }

/-- The target in a value. -/
def ofValue (v : Value) : Except Fault Target := readComposite "target" Descriptor.target fields v

end Target

end Amqp
