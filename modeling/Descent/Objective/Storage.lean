import Descent.Objective.Basic

namespace Descent

namespace Buffer

variable {α : Type}

def writeEntries (count : Nat) (entry : Nat → α) (buffer : List α) : List α :=
  buffer.mapIdx fun i a => if i < count then entry i else a

def writeRows (counts : List Nat) (entry : Nat → Nat → α) (buffers : List (List α)) :
    List (List α) :=
  buffers.mapIdx fun k buffer => writeEntries (counts.getD k 0) (entry k) buffer

def writeBlocks (entry : Nat → Nat → Nat → Nat → α) (blocks : TermBlocks α) : TermBlocks α :=
  blocks.mapIdx fun k row => row.mapIdx fun l block =>
    block.mapIdx fun i entries => entries.mapIdx fun j _ => entry k l i j

def readRows (counts : List Nat) (buffers : List (List α)) : List (List α) :=
  counts.zipWith (fun count buffer => buffer.take count) buffers

def entry [Zero α] (rows : List (List α)) (k i : Nat) : α := (rows.getD k []).getD i 0

def zeros [Zero α] (size : Nat) : List α := List.replicate size 0

def zeroBlocks [Zero α] (dimensions : List Nat) : TermBlocks α :=
  dimensions.map fun d => dimensions.map fun e => List.replicate d (zeros e)

end Buffer

namespace Registry

variable {α : Type}

def largest (sizes : List Nat) : Nat := sizes.foldl max 1

def newTermStorage [Zero α] (r : Registry α) (b : Binding α) : TermStorage α :=
  let dimensions := (r.arguments b).map (·.userDimension)
  { arguments := b.positions
    dimensions
    blocks := if r.hessianEnabled then some (Buffer.zeroBlocks dimensions) else none }

def newWorker [Zero α] (r : Registry α) (chunk : Nat × Nat) : Worker α where
  chunk
  gradient := Buffer.zeros (r.scalars + r.constants)
  scratch := List.replicate (largest (r.terms.map (·.positions.length)))
    (Buffer.zeros (largest (r.vars.map (·.userDimension))))

def chunks (r : Registry α) : List (Nat × Nat) :=
  Partition.chunks r.terms.length (Partition.workers r.threads r.terms.length)

def newStorage [Zero α] (r : Registry α) : LocalStorage α where
  locals := r.vars.map fun v => Buffer.zeros v.userDimension
  workers := r.chunks.map r.newWorker
  terms := r.terms.map r.newTermStorage

end Registry

end Descent
