import LaunchPad.Lib.Table

/-!
# The load balancer

`RoundRobinLoadBalancer` hands out its healthy instances in turn; where it stands is an index into
the list of those that are healthy now. `stats` is an object: what is written under `__proto__` is
lost.
-/

namespace LaunchPad

open Rows

/-- An instance, with its `app`. -/
structure UpstreamInstance (A : Type) where
  name : String
  app : A
  isHealthy : Bool
deriving DecidableEq

structure RoundRobinLoadBalancer (A : Type) where
  instances : List (UpstreamInstance A)
  currentIndex : ℕ
  stats : Table String ℤ

/-- A call of the balancer. -/
inductive BalancerCall (A : Type)
  | registerInstance (name : String) (app : A)
  | killInstance (name : String)
  | restoreInstance (name : String)
  | getNextInstance

namespace RoundRobinLoadBalancer

variable {A : Type}

def new : RoundRobinLoadBalancer A := ⟨[], 0, .empty⟩

/-- `stats[name] = count` -/
def setStat (name : String) (count : ℤ) (stats : Table String ℤ) : Table String ℤ :=
  if name = "__proto__" then stats else stats.set name count

def registerInstance (name : String) (app : A) (lb : RoundRobinLoadBalancer A) :
    RoundRobinLoadBalancer A :=
  { lb with instances := lb.instances ++ [⟨name, app, true⟩], stats := setStat name 0 lb.stats }

/-- The first instance of that name, if there is one, is healthy or not from now on. -/
def setHealthy (name : String) (isHealthy : Bool) :
    List (UpstreamInstance A) → List (UpstreamInstance A)
  | [] => []
  | i :: is =>
    if i.name = name then { i with isHealthy } :: is else i :: setHealthy name isHealthy is

def killInstance (name : String) (lb : RoundRobinLoadBalancer A) : RoundRobinLoadBalancer A :=
  { lb with instances := setHealthy name false lb.instances }

def restoreInstance (name : String) (lb : RoundRobinLoadBalancer A) : RoundRobinLoadBalancer A :=
  { lb with instances := setHealthy name true lb.instances }

def getHealthyInstances (lb : RoundRobinLoadBalancer A) : List (UpstreamInstance A) :=
  lb.instances.filter UpstreamInstance.isHealthy

def getNextInstance (lb : RoundRobinLoadBalancer A) :
    Option (UpstreamInstance A) × RoundRobinLoadBalancer A :=
  let healthy := lb.getHealthyInstances
  if h : healthy.length = 0 then (none, lb)
  else
    let inst := healthy.get
      ⟨lb.currentIndex % healthy.length, Nat.mod_lt _ (Nat.pos_of_ne_zero h)⟩
    (some inst, { lb with
      currentIndex := (lb.currentIndex + 1) % healthy.length
      stats := setStat inst.name ((lb.stats.row inst.name).getD 0 + 1) lb.stats })

/-- A call, and what `getNextInstance` returns. -/
def handle (call : BalancerCall A) (lb : RoundRobinLoadBalancer A) :
    Option (Option (UpstreamInstance A)) × RoundRobinLoadBalancer A :=
  match call with
  | .registerInstance name app => (none, lb.registerInstance name app)
  | .killInstance name => (none, lb.killInstance name)
  | .restoreInstance name => (none, lb.restoreInstance name)
  | .getNextInstance => lb.getNextInstance.map some id

end RoundRobinLoadBalancer

end LaunchPad
