import Blake2F.Engine.Lanes
import Blake2F.Engine.Pairs

/-! The choice of an engine: all give the same state, and one that the machine lacks gives way to the portable
one. Chains of compressions may choose anew at each step. -/

namespace Blake2F

/-- The engines that a caller can ask for. -/
inductive Engine where
  /-- Plain words, on every machine. -/
  | portable
  /-- Registers of four lanes. -/
  | avx2
  /-- Registers of two lanes. -/
  | neon
  deriving DecidableEq, Repr

/-- What the machine at hand has beyond plain words, and how the library is built for it. -/
structure Machine where
  /-- Whether it has registers of four lanes. -/
  avx2 : Bool := false
  /-- Whether it has registers of two lanes. -/
  neon : Bool := false
  /-- Whether the library is built to take the portable engine unless another one is asked for. -/
  prefersPortable : Bool := false
  deriving DecidableEq, Repr

/-- The machine that has plain words only. -/
def Machine.plain : Machine := {}

namespace Engine

/-- Every engine, in the order in which they are listed and compared. -/
def all : List Engine := [portable, avx2, neon]

/-- The name that an engine goes by. -/
def name : Engine → String
  | portable => "portable"
  | avx2 => "avx2"
  | neon => "neon"

/-- The place of an engine among all. -/
def index : Engine → Nat
  | portable => 0
  | avx2 => 1
  | neon => 2

/-- Engines compare by their place in the list. -/
instance : Ord Engine := ⟨fun left right => compare left.index right.index⟩

/-- The engine of a name. -/
def ofName? (name : String) : Option Engine := all.find? (·.name == name)

/-- The engine of a name, in which the case of the letters a to z may be left open. -/
def ofArgument? (ignoreCase : Bool) (name : String) : Option Engine :=
  -- Only the letters a to z have a case here, as they do in every name.
  if ignoreCase then all.find? (·.name.toList.map Char.toLower == name.toList.map Char.toLower)
  else ofName? name

/-- Whether a machine can run an engine, whichever one the library is built to prefer. -/
def isAvailable (machine : Machine) : Engine → Bool
  | portable => true
  | avx2 => machine.avx2
  | neon => machine.neon

/-- The engine to take when none is asked for: the fastest that a machine can run, unless the library is built
to prefer the portable one. -/
def detect (machine : Machine) : Engine :=
  if machine.prefersPortable then portable
  else ([avx2, neon].find? (·.isAvailable machine)).getD portable

/-- The chaining state after a compression by an engine, or by the portable one where it is not available. -/
def compress (machine : Machine) : Engine → Params → State
  | avx2, params => if machine.avx2 then Lanes.compress params else Rows.compress params
  | neon, params => if machine.neon then Pairs.compress params else Rows.compress params
  | portable, params => Rows.compress params

/-- Detection never names an engine that the machine lacks. -/
theorem isAvailable_detect (machine : Machine) : (detect machine).isAvailable machine := by
  -- The portable engine is always there, and any other is only found where it is.
  rw [detect]
  split
  · rfl
  · cases found : [avx2, neon].find? (·.isAvailable machine) with
    | none => rfl
    | some engine => exact List.find?_some found

end Engine

namespace Chain

variable {α : Type}

/-- The states that the steps of a chain leave; each step says how to compress and what, its own state aside. -/
def states (compress : α → Params → State) (state : State) : List (α × Params) → List State
  | [] => []
  | (how, params) :: rest =>
    -- The state of the chain takes the place of the step's own.
    let next := compress how { params with state }
    next :: states compress next rest

end Chain

end Blake2F
