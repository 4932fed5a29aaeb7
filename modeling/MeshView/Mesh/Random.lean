/-
# Random meshes

A random mesh has numbered nodes with random costs; each is linked to the next one, and some more
links join nodes at random.  The numbers come from any source that has a state and yields one number
at a time; a draw from a range takes the number modulo the size of the range.  Which mesh belongs to a
seed is a matter of the generator, and nothing here depends on it.
-/

import MeshView.Mesh

namespace MeshView

/-- A source of numbers with state `σ`. -/
abbrev Draws (σ : Type) := σ → Nat × σ

namespace Draws
variable {σ : Type}

/-- Draws a number from `low` to `high`. -/
def between (draw : Draws σ) (low high : Nat) (s : σ) : Nat × σ :=
  let (n, s) := draw s
  (low + n % (high + 1 - low), s)

/-- Draws a cost from `low` to `high`. -/
def cost (draw : Draws σ) (low high : Nat) (s : σ) : Cost × σ :=
  let (n, s) := draw.between low high s
  (.ofNat n, s)

/-- Draws one of the identities, of which `first` is one. -/
def pick (draw : Draws σ) (first : NodeId) (others : List NodeId) (s : σ) : NodeId × σ :=
  let (n, s) := draw.between 0 others.length s
  ((first :: others).getD n first, s)

theorem between_range (draw : Draws σ) {low high : Nat} (h : low ≤ high) (s : σ) :
    low ≤ (draw.between low high s).1 ∧ (draw.between low high s).1 ≤ high := by
  have : (draw s).1 % (high + 1 - low) < high + 1 - low := Nat.mod_lt _ (by omega)
  simp only [between]
  omega

/-- A linear congruential source on 64-bit words, which yields the upper half of its state. -/
def congruential : Draws UInt64 := fun s =>
  let s := s * 6364136223846793005 + 1442695040888963407
  ((s >>> 32).toNat, s)

end Draws

/-- A generator with state `σ`: a source of numbers that starts from a seed. -/
structure Generator (σ : Type) where
  seeded : UInt64 → σ
  draw : Draws σ

/-- The congruential source, started with the seed itself. -/
def Generator.congruential : Generator UInt64 := ⟨id, .congruential⟩

namespace Mesh
variable {σ : Type}

/-- The address of the node of a number. -/
def numberedAddress (i : Nat) : String := s!"udp://10.0.{i / 256}.{i % 256}:9000"

def numberedIds (count : Nat) : List NodeId :=
  (List.range count).map fun i => NodeId.ofAddress (numberedAddress i)

/-- Adds the nodes of the numbers, with costs from 1 to 10. -/
def scatter (draw : Draws σ) : List Nat → Mesh → σ → Mesh × σ
  | [], m, s => (m, s)
  | i :: rest, m, s =>
    let (cost, s) := draw.cost 1 10 s
    scatter draw rest (m.addNode (numberedAddress i) (some cost)) s

/-- Links each node to the next one, with costs from 1 to 20. -/
def chain (draw : Draws σ) : List NodeId → Mesh → σ → Mesh × σ
  | a :: b :: rest, m, s =>
    let (cost, s) := draw.cost 1 20 s
    chain draw (b :: rest) (m.addLink a b cost) s
  | _, m, s => (m, s)

/-- Draws two of the nodes `count` times and links them if they are different. -/
def shortcuts (draw : Draws σ) (first : NodeId) (others : List NodeId) :
    Nat → Mesh → σ → Mesh × σ
  | 0, m, s => (m, s)
  | count + 1, m, s =>
    let (a, s) := draw.pick first others s
    let (b, s) := draw.pick first others s
    if a = b then shortcuts draw first others count m s
    else
      let (cost, s) := draw.cost 1 20 s
      shortcuts draw first others count (m.addLink a b cost) s

/-- A random mesh of `count` nodes in a chain; from three nodes on, `extra` more links are drawn. -/
def random (draw : Draws σ) (count extra : Nat) (s : σ) : Mesh × σ :=
  let ids := numberedIds count
  let (m, s) := scatter draw (List.range count) empty s
  let (m, s) := chain draw ids m s
  match ids with
  | first :: others => if 2 < count then shortcuts draw first others extra m s else (m, s)
  | [] => (m, s)

end Mesh
end MeshView
