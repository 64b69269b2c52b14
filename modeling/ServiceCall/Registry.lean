import ServiceCall.Stub

/-!
# Registered services

Each service is registered once, under its name.
-/

namespace ServiceCall

/-- The stubs of the registered services, by their names. -/
abbrev Registry := KeyMap ServiceStubs

namespace Registry

/-- What is told when a service is registered. -/
def records (s : ServiceStubs) : List Log.Record :=
  s.contract.generateRecords s.stubs
    ++ [⟨.info, "ws_client::stub::registry", "Registered web service client",
      [("service", s.contract.name), ("service_url", s.client.base.text)]⟩]

/-- Registers a service in the registry at hand, and hands out its stubs. A failure undoes nothing of
what was changed before it. -/
def enter (contract : Contract) (client : ServiceClient) :
    ExceptT ContractError (StateM Registry) ServiceStubs := do
  if KeyMap.contains (← get) contract.name then
    throw (.serviceAlreadyRegistered contract.name)
  let stubs ← ServiceStubs.build contract client
  modify fun r => KeyMap.insert r contract.name stubs
  return stubs

/-- Registers a service: the registry with its stubs, and these. -/
def register (r : Registry) (contract : Contract) (client : ServiceClient) :
    Except ContractError (Registry × ServiceStubs) :=
  let (outcome, after) := (enter contract client).run r
  outcome.map fun stubs => (after, stubs)

/-- The names of the registered services, in increasing order. -/
def services (r : Registry) : List String := KeyMap.keys r

end Registry

end ServiceCall
