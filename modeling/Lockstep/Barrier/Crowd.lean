import Lockstep.Barrier

/-!
# Crowds at a barrier

Parties that wait for each other at one barrier again and again, and others who may abort it at
any moment.  A party whose wait is not over sleeps until it is notified, but it may also wake up
and look for no reason.  An abort comes in two steps: first the barrier is marked, and later
whoever sleeps is notified.
-/

namespace Lockstep

/-- How a wait ends. -/
inductive WaitEnd where
  | released
  | aborted
deriving DecidableEq

inductive Party where
  /-- Outside of any wait. -/
  | away
  /-- In a wait that began in some generation.  Unless it has been notified since it last looked,
  the party sleeps. -/
  | waiting (generation : Nat) (notified : Bool)
deriving DecidableEq

namespace Party

def notify : Party → Party
  | away => away
  | waiting generation _ => waiting generation true

def waitsIn (generation : Nat) : Party → Bool
  | away => false
  | waiting generation' _ => generation' == generation

end Party

inductive CrowdEvent where
  | enters (party : Nat)
  | leaves (party : Nat) (result : WaitEnd)
deriving DecidableEq

namespace CrowdEvent

/-- How many waits a party has begun. -/
def entries (i : Nat) (log : List CrowdEvent) : Nat := log.count (enters i)

def result? (i : Nat) : CrowdEvent → Option WaitEnd
  | enters _ => none
  | leaves j result => if j = i then some result else none

/-- How the waits of a party have ended, in order. -/
def results (i : Nat) (log : List CrowdEvent) : List WaitEnd := log.filterMap (result? i)

/-- The waits of a party for which the others have come. -/
def meetings (i : Nat) (log : List CrowdEvent) : Nat := (results i log).count .released

/-- Whether each of `n` parties has begun the wait of this number. -/
def Met (n : Nat) (log : List CrowdEvent) (wait : Nat) : Prop := ∀ j < n, wait < entries j log

instance (n : Nat) (log : List CrowdEvent) (wait : Nat) : Decidable (Met n log wait) :=
  inferInstanceAs (Decidable (∀ j < n, wait < entries j log))

/-- Whether a party has begun a wait that has not ended. -/
def Inside (i : Nat) (log : List CrowdEvent) : Prop := (results i log).length < entries i log

instance (i : Nat) (log : List CrowdEvent) : Decidable (Inside i log) :=
  inferInstanceAs (Decidable ((results i log).length < entries i log))

end CrowdEvent

inductive CrowdMove where
  /-- A party begins a wait, or looks whether its wait is over. -/
  | party (index : Nat)
  | abort
  /-- The second step of an abort. -/
  | notify
deriving DecidableEq

structure Crowd where
  barrier : Barrier
  parties : Array Party
  /-- The aborts of which only the first step has been taken. -/
  aborting : Nat
deriving DecidableEq

namespace Crowd

def start (parties : Nat) : Crowd := ⟨.new parties, Array.replicate parties .away, 0⟩

def put (c : Crowd) (i : Nat) (party : Party) : Crowd :=
  { c with parties := c.parties.setIfInBounds i party }

def notifyAll (c : Crowd) : Crowd := { c with parties := c.parties.map Party.notify }

def turn (c : Crowd) (i : Nat) : Party → List CrowdEvent × Crowd
  | .away =>
      match c.barrier.arrive with
      | (.released, barrier) => ([.enters i, .leaves i .released], { c.notifyAll with barrier })
      | (.waiting generation, barrier) =>
          ([.enters i], { c.put i (.waiting generation false) with barrier })
      | (.aborted, barrier) => ([.enters i, .leaves i .aborted], { c with barrier })
  | .waiting generation _ =>
      match c.barrier.poll generation with
      | .blocked => ([], c.put i (.waiting generation false))
      | .released => ([.leaves i .released], c.put i .away)
      | .aborted => ([.leaves i .aborted], c.put i .away)

def move (c : Crowd) : CrowdMove → List CrowdEvent × Crowd
  | .party i =>
      match c.parties[i]? with
      | some party => c.turn i party
      | none => ([], c)
  | .abort => ([], { c with barrier := c.barrier.abort, aborting := c.aborting + 1 })
  | .notify => ([], if 0 < c.aborting then { c.notifyAll with aborting := c.aborting - 1 } else c)

def events (c : Crowd) (m : CrowdMove) : List CrowdEvent := (c.move m).1

def step (c : Crowd) (m : CrowdMove) : Crowd := (c.move m).2

def follow (c : Crowd) (moves : List CrowdMove) : Crowd := moves.foldl step c

/-- What happens in a sequence of moves. -/
def log : (moves : List CrowdMove) → Crowd → List CrowdEvent
  | [], _ => []
  | m :: moves, c => c.events m ++ log moves (c.step m)

end Crowd
end Lockstep
