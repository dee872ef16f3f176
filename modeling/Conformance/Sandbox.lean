import Conformance.Machine.Interface

namespace Conformance

/-- A reference machine with accounts and one method, the plain transfer. -/
structure Sandbox where
  actors : SortedMap UInt64 Actor := .empty
  /-- The IDs of the addresses that are not IDs themselves. -/
  addresses : SortedMap Address UInt64 := .empty
  store : SortedMap Cid Bytes := .empty
  /-- Smaller IDs may be taken, greater ones are free. -/
  nextId : UInt64 := 100
  /-- Gas rewards not yet paid to a miner. -/
  rewardPool : TokenAmount := 0
  burnt : TokenAmount := 0
  /-- Epoch and draw of the last tick. -/
  lastCron : Option (Int64 × Bytes) := none
  deriving DecidableEq

namespace Sandbox

open Machine (Error)

instance : Inhabited Sandbox := ⟨{}⟩

/-- The ID of the actor at an address. -/
def resolve (s : Sandbox) : Address → Option UInt64
  | .id n => if s.actors.contains n then some n else none
  | a => s.addresses.get? a

def actor? (s : Sandbox) (a : Address) : Option Actor := (s.resolve a).bind s.actors.get?

/-- The actor with an ID. -/
def actorAt (s : Sandbox) (id : UInt64) : Except Error Actor :=
  match s.actors.get? id with
  | some a => .ok a
  | none => .error (.actorVanished id)

def putActor (s : Sandbox) (id : UInt64) (a : Actor) : Sandbox :=
  { s with actors := s.actors.insert id a }

/-- Adds an actor: at its own ID, or at the next ID, which its address is then recorded for. -/
def insertActor (s : Sandbox) (address : Address) (actor : Actor) :
    Except Error (UInt64 × Sandbox) :=
  if (s.resolve address).isSome then .error (.actorExists address)
  else
    let id := address.id?.getD s.nextId
    match Word.next? id with
    | none => .error (.idSpaceExhausted address)
    | some after =>
      .ok (id, { s with
        addresses := if address.isId then s.addresses else s.addresses.insert address id
        nextId := if s.nextId ≤ id then after else s.nextId
        actors := s.actors.insert id actor })

/-- The ID of an address. Where it has none, an account is created for it. -/
def locate (s : Sandbox) (address : Address) : Except Error (UInt64 × Sandbox) :=
  match s.resolve address with
  | some id => .ok (id, s)
  | none => s.insertActor address (.account 0)

def storeGet (s : Sandbox) (cid : Cid) : Except Error Bytes :=
  match s.store.get? cid with
  | some data => .ok data
  | none => .error (.blockNotFound cid)

def storePut (s : Sandbox) (data : Bytes) : Cid × Sandbox :=
  let cid := Cid.ofBytes data
  (cid, { s with store := s.store.insert cid data })

def setActorState (s : Sandbox) (address : Address) (balance : TokenAmount) (head : Cid) :
    Except Error (Actor × Sandbox) := do
  match s.resolve address with
  | none => .error (.actorNotFound address)
  | some id =>
    let a ← s.actorAt id
    let a := { a with balance, head }
    pure (a, s.putActor id a)

def createActor (s : Sandbox) (code : Cid) (address : Address) (balance : TokenAmount)
    (head : Cid) : Except Error ((Actor × Address) × Sandbox) :=
  if code ≠ .account then .error (.unsupportedCode code)
  else do
    let a : Actor := { code, head, nonce := 0, balance }
    let (id, s) ← s.insertActor address a
    pure ((a, .id id), s)

/-- Adds to the balance of an actor. -/
def credit (s : Sandbox) (id : UInt64) (amount : TokenAmount) : Except Error Sandbox := do
  let a ← s.actorAt id
  pure (s.putActor id { a with balance := a.balance + amount })

/-- Takes from the balance of an actor, which has to cover the amount. -/
def debit (s : Sandbox) (id : UInt64) (amount : TokenAmount) (uncovered : Error) :
    Except Error Sandbox := do
  let a ← s.actorAt id
  match TokenAmount.sub? a.balance amount with
  | none => .error uncovered
  | some balance => pure (s.putActor id { a with balance })

/-- The sum of all balances. -/
def balances (s : Sandbox) : TokenAmount := (s.actors.values.map Actor.balance).foldr (· + ·) 0

def storedActor (a : Actor) : Bytes :=
  a.code.stored ++ a.head.stored ++ Bytes.ofUInt64 a.nonce ++ TokenAmount.stored a.balance

/-- The number of entries, then each key followed by its value. -/
def storedMap {κ α : Type} [MapKey κ] (key : κ → Bytes) (value : α → Bytes)
    (m : SortedMap κ α) : Bytes :=
  Bytes.ofVarint m.entries.length ++ m.entries.flatMap (fun e => key e.1 ++ value e.2)

def storedCron : Option (Int64 × Bytes) → Bytes
  | none => [0]
  | some (epoch, draw) => 1 :: Bytes.ofInt64 epoch ++ Bytes.sized draw

/-- Every field is written so that its end shows, and maps in the order of their keys' bytes. -/
def bytes (s : Sandbox) : Bytes :=
  storedMap Bytes.ofUInt64 storedActor s.actors ++
  storedMap Address.stored Bytes.ofUInt64 s.addresses ++
  storedMap Cid.stored Bytes.sized s.store ++
  Bytes.ofUInt64 s.nextId ++ TokenAmount.stored s.rewardPool ++ TokenAmount.stored s.burnt ++
  storedCron s.lastCron

def root (s : Sandbox) : Cid := .ofBytes s.bytes

end Sandbox
end Conformance
