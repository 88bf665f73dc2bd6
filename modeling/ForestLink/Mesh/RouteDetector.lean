/-
Module: ForestLink.Mesh.RouteDetector
Purpose: A neighbour table with its detector of better routes (`better_route_` of
  `route_table.hpp`), changed and checked in any order.
Trusted boundary: none
Main exports: setHopsToInternet, RouteDetector, RouteDetector.Call, RouteDetector.check,
  RouteDetector.step
-/
import ForestLink.Mesh.RouteCalls

namespace ForestLink.Mesh

/-- `set_hops_to_internet` -/
def RouteTable.setHopsToInternet (table : RouteTable) (addr hops : Nat) : RouteTable :=
  table.adjust addr fun entry => { entry with hopsToInternet := hops }

namespace RouteDetector

/-- A call of `check_better_route`: what it was asked, the address it says to switch to, and
what it follows afterwards. -/
structure Check where
  table : RouteTable
  currentBest : Nat
  myAddr : Nat
  switchTo : Option Nat
  after : BetterRoute
deriving Repr, DecidableEq

/-- Changes of the table at clock readings, and checks. -/
inductive Call where
  | change (now : Nat) (call : RouteCall)
  | setHopsToInternet (addr hops : Nat)
  | check (currentBest myAddr : Nat)

end RouteDetector

/-- The table, `better_route_`, and the checks so far, newest first. -/
structure RouteDetector where
  table : RouteTable := {}
  betterRoute : BetterRoute := {}
  checks : List RouteDetector.Check := []
deriving Repr, DecidableEq

namespace RouteDetector

def check (d : RouteDetector) (currentBest myAddr : Nat) : RouteDetector :=
  let checked := d.table.checkBetterRoute d.betterRoute currentBest myAddr
  { d with
    betterRoute := checked.2
    checks :=
      { table := d.table
        currentBest := currentBest
        myAddr := myAddr
        switchTo := checked.1
        after := checked.2 } :: d.checks }

def step (d : RouteDetector) : Call → RouteDetector
  | .change now call => { d with table := d.table.apply now call }
  | .setHopsToInternet addr hops => { d with table := d.table.setHopsToInternet addr hops }
  | .check currentBest myAddr => d.check currentBest myAddr

def run (d : RouteDetector) (calls : List Call) : RouteDetector := calls.foldl step d

end RouteDetector

end ForestLink.Mesh
