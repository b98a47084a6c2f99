import EbpfXdpProgram.Lib.Table
import Mathlib.Algebra.BigOperators.Fin
import Mathlib.Algebra.Group.Nat.Even

/-!
# Per-CPU maps

An element of a per-CPU map has one slot for each of `n` CPUs. A program running on a CPU reads and
writes that CPU's slot only; a program outside reads all slots of an element at once. A hash map
creates a missing element with zero in the slots of the other CPUs, and a missing element reads as
zero everywhere.
-/

/-! ## Arrays -/

abbrev PerCpuArray (n size : ℕ) (ν : Type) := Fin n → Fin size → ν

namespace PerCpuArray

variable {n size : ℕ} {ν : Type}

/-- The element at `idx` as the CPU sees it: nothing past the end. -/
def get (a : PerCpuArray n size ν) (cpu : Fin n) (idx : ℕ) : Option ν :=
  if h : idx < size then some (a cpu ⟨idx, h⟩) else none

def set (a : PerCpuArray n size ν) (cpu : Fin n) (idx : ℕ) (v : ν) : PerCpuArray n size ν :=
  fun c i => if c = cpu ∧ i.val = idx then v else a c i

/-- What user space reads of an element: the slots of all CPUs. -/
def values (a : PerCpuArray n size ν) (idx : ℕ) : Option (List ν) :=
  if h : idx < size then some (List.ofFn fun cpu => a cpu ⟨idx, h⟩) else none

end PerCpuArray

/-! ## Hash maps -/

abbrev PerCpuHashMap (n : ℕ) (κ ν : Type) := Table κ (Fin n → ν)

namespace PerCpuHashMap

variable {n : ℕ} {κ ν : Type} [DecidableEq κ]

def get (m : PerCpuHashMap n κ ν) (cpu : Fin n) (k : κ) : Option ν :=
  (m.lookup k).map fun slots => slots cpu

/-- A write through the CPU's pointer to the element of `k`; nothing if the element is gone. -/
def modify (m : PerCpuHashMap n κ ν) (cpu : Fin n) (k : κ) (f : ν → ν) : PerCpuHashMap n κ ν :=
  match m.lookup k with
  | some slots => Finmap.insert k (Function.update slots cpu (f (slots cpu))) m
  | none => m

variable [Zero ν]

/-- Writes the CPU's slot; a missing element is created with zero in the other slots. -/
def insert (m : PerCpuHashMap n κ ν) (cpu : Fin n) (k : κ) (v : ν) : PerCpuHashMap n κ ν :=
  Finmap.insert k (Function.update ((m.lookup k).getD fun _ => 0) cpu v) m

/-- The slots of `k`, zero if it is missing. -/
def slots (m : PerCpuHashMap n κ ν) (k : κ) : Fin n → ν := (m.lookup k).getD fun _ => 0

/-- The elements with the slots of all CPUs, in the iteration order `o`. -/
def entries (o : IterOrder κ) (m : PerCpuHashMap n κ ν) : List (κ × List ν) :=
  (o.enum m.keys).map fun k => (k, List.ofFn (m.slots k))

theorem slots_of_lookup {m : PerCpuHashMap n κ ν} {k : κ} {s : Fin n → ν}
    (h : m.lookup k = some s) : m.slots k = s := by
  unfold slots
  rw [h]
  rfl

theorem slots_of_not_mem {m : PerCpuHashMap n κ ν} {k : κ} (h : k ∉ m) (cpu : Fin n) :
    m.slots k cpu = 0 := by
  unfold slots
  rw [Finmap.lookup_eq_none.mpr h]
  rfl

@[simp] theorem mem_insert {m : PerCpuHashMap n κ ν} {cpu : Fin n} {k j : κ} {v : ν} :
    j ∈ m.insert cpu k v ↔ j = k ∨ j ∈ m := Finmap.mem_insert

theorem slots_insert (m : PerCpuHashMap n κ ν) (cpu : Fin n) (k : κ) (v : ν) (j : κ) (c : Fin n) :
    (m.insert cpu k v).slots j c = if j = k ∧ c = cpu then v else m.slots j c := by
  unfold slots insert
  by_cases hj : j = k
  · subst hj
    rw [Finmap.lookup_insert, Option.getD_some, Function.update_apply]
    simp only [true_and]
  · rw [Finmap.lookup_insert_of_ne _ hj, if_neg fun h => hj h.1]

/-- A write through a pointer to a present element is an update of its slot. -/
theorem modify_eq_insert {m : PerCpuHashMap n κ ν} {k : κ} (h : k ∈ m) (cpu : Fin n)
    (f : ν → ν) : m.modify cpu k f = m.insert cpu k (f (m.slots k cpu)) := by
  obtain ⟨s, hs⟩ := Finmap.mem_iff.mp h
  unfold modify insert
  rw [slots_of_lookup hs, hs]
  rfl

omit [Zero ν] in
theorem get_isSome {m : PerCpuHashMap n κ ν} {cpu : Fin n} {k : κ} :
    (m.get cpu k).isSome = true ↔ k ∈ m := by
  unfold get
  rw [Option.isSome_map, Finmap.lookup_isSome]

end PerCpuHashMap
