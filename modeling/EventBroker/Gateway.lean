import EventBroker.Error
import EventBroker.Fifo
import EventBroker.SlotTable

/-! # The streaming gateway

Subscribers register under a category and get every message published there from then on. Each has a
mailbox that holds up to a fixed number of messages; a message that finds it full is lost for that
subscriber. Publishing goes by the list of mailboxes that a category has published, which follows
its slots at every change. A category exists as long as it has a subscriber.

When the gateway is dropped, the mailboxes can still be drained and then are disconnected.
-/
set_option autoImplicit false

namespace EventBroker

structure Category where
  name : String
  slots : SlotTable Nat
  published : List Nat

structure Mailbox (α : Type) where
  serial : Nat
  messages : Fifo α

/-- Says which slot of which category a subscriber holds, and which mailbox it reads. -/
structure Subscription where
  category : String
  slot : Nat
  mailbox : Nat
  deriving DecidableEq, Repr

inductive Receipt (α : Type) where
  | message (a : α)
  | empty
  | disconnected

structure Gateway (α : Type) where
  capacity : Nat
  categories : List Category
  subscribers : Nat
  mailboxes : List (Mailbox α)
  nextMailbox : Nat
  dropped : Bool

namespace Category

def publish (c : Category) : Category := { c with published := c.slots.values }

end Category

namespace Gateway

variable {α : Type}

/-- The largest capacity for which a mailbox can be made: `2 ^ 61 - 1`. -/
def maxCapacity : Nat := 0x1FFFFFFFFFFFFFFF

def new (capacity : Nat) : Gateway α := ⟨capacity, [], 0, [], 0, false⟩

def find? (g : Gateway α) (category : String) : Option Category :=
  g.categories.find? (·.name == category)

/-- Puts a category in the place of the one with its name, or at the end. -/
def putCategory (g : Gateway α) (c : Category) : Gateway α :=
  if g.categories.any (·.name == c.name) then
    { g with categories := g.categories.map fun old => if old.name == c.name then c else old }
  else { g with categories := g.categories ++ [c] }

def eraseCategory (g : Gateway α) (category : String) : Gateway α :=
  { g with categories := g.categories.filter (·.name != category) }

/-- Registers a subscriber of a category. A capacity for which no mailbox can be made ends
everything. -/
def subscribe (g : Gateway α) (category : String) : Except Crash (Subscription × Gateway α) :=
  if g.capacity = 0 ∨ maxCapacity < g.capacity then .error (.mailboxCapacity g.capacity)
  else
    let mailbox := g.nextMailbox
    let c := (g.find? category).getD ⟨category, .empty, []⟩
    let (slot, slots) := c.slots.insert mailbox
    let g := g.putCategory (Category.publish { c with slots })
    .ok (⟨category, slot, mailbox⟩,
      { g with
        subscribers := g.subscribers + 1
        mailboxes := g.mailboxes ++ [⟨mailbox, .empty⟩]
        nextMailbox := mailbox + 1 })

/-- Takes a subscriber out of its category; nothing happens if the slot is vacant. Gives whether it
was registered. -/
def deregister (g : Gateway α) (s : Subscription) : Except Crash (Bool × Gateway α) :=
  match g.find? s.category with
  | none => .ok (false, g)
  | some c =>
    match c.slots.get? s.slot with
    | none => .ok (false, g)
    | some _ =>
      let c := Category.publish { c with slots := c.slots.remove s.slot }
      let g := if c.slots.isEmpty then g.eraseCategory s.category else g.putCategory c
      if g.subscribers = 0 then .error .subscriberUnderflow
      else .ok (true, { g with subscribers := g.subscribers - 1 })

def discard (g : Gateway α) (mailbox : Nat) : Gateway α :=
  { g with mailboxes := g.mailboxes.filter (·.serial != mailbox) }

/-- Drops a subscription: its mailbox is gone, and it is taken out of its category unless the
gateway has been dropped. -/
def unsubscribe (g : Gateway α) (s : Subscription) : Except Crash (Bool × Gateway α) :=
  let g := g.discard s.mailbox
  if g.dropped then .ok (false, g) else g.deregister s

/-- Offers a message to one mailbox; gives whether it was taken. A mailbox that is gone takes none
and counts for nothing. -/
def offer (capacity : Nat) (a : α) (mailbox : Nat) :
    List (Mailbox α) → Option Bool × List (Mailbox α)
  | [] => (none, [])
  | m :: rest =>
    if m.serial = mailbox then
      if capacity ≤ m.messages.size then (some false, m :: rest)
      else (some true, { m with messages := m.messages.push a } :: rest)
    else
      let (taken, rest') := offer capacity a mailbox rest
      (taken, m :: rest')

/-- How many subscribers took a message, and for how many it was lost. -/
structure Tally where
  taken : Nat
  lost : Nat
  deriving DecidableEq, Repr

def publish (g : Gateway α) (category : String) (a : α) : Tally × Gateway α :=
  match g.find? category with
  | none => (⟨0, 0⟩, g)
  | some c =>
    let (tally, mailboxes) := c.published.foldl
      (fun (tally, mailboxes) mailbox =>
        match offer g.capacity a mailbox mailboxes with
        | (some true, mailboxes) => (⟨tally.taken + 1, tally.lost⟩, mailboxes)
        | (some false, mailboxes) => (⟨tally.taken, tally.lost + 1⟩, mailboxes)
        | (none, mailboxes) => (tally, mailboxes))
      ((⟨0, 0⟩ : Tally), g.mailboxes)
    (tally, { g with mailboxes })

def mailbox? (g : Gateway α) (s : Subscription) : Option (Mailbox α) :=
  g.mailboxes.find? (·.serial == s.mailbox)

def whenEmpty (g : Gateway α) : Receipt α := if g.dropped then .disconnected else .empty

def setMessages (g : Gateway α) (s : Subscription) (messages : Fifo α) : Gateway α :=
  { g with
    mailboxes := g.mailboxes.map fun m =>
      if m.serial == s.mailbox then { m with messages } else m }

def receive (g : Gateway α) (s : Subscription) : Receipt α × Gateway α :=
  match (g.mailbox? s).bind (·.messages.pop?) with
  | some (a, rest) => (.message a, g.setMessages s rest)
  | none => (g.whenEmpty, g)

def receiveUpTo (g : Gateway α) (s : Subscription) (max : Option Nat) : List α × Gateway α :=
  match g.mailbox? s with
  | none => ([], g)
  | some m =>
    let waiting := m.messages.toList
    let n := max.getD waiting.length
    (waiting.take n, g.setMessages s (.ofList (waiting.drop n)))

def drop (g : Gateway α) : Gateway α := { g with categories := [], dropped := true }

end Gateway

end EventBroker
