/-
Batched calls (`multicall3_batch` of `tools/_internals/_multicall3.py`).

The ABI coder and the node are parameters: what `rpc_call` returns for a chunk, or nothing where it raises, and what the bytes
decode to. `placed` is the output with the chunk and the place in its answer that every result was taken from.
-/
import Mathlib

namespace Teardrop.Multicall

open List

/-! ## Model -/

abbrev Bytes := List UInt8

/-- a target and its calldata -/
abbrev Call := String × Bytes

/-- success and return data -/
abbrev Result := Bool × Bytes

def batchChunkSize : ℕ := 300

/-- `eth_abi` and the node; the node is asked for the chunk from a place on -/
structure Node where
  abiEncode : List (String × Bool × Bytes) → Bytes
  abiDecode : Bytes → Option (List Result)
  ethCall : ℕ → Bytes → Option Bytes

def aggregate3Selector : Bytes := [0x82, 0xad, 0x56, 0xcb]

def encodeAggregate3 (node : Node) (calls : List Call) (allowFailure : Bool) : Bytes :=
  aggregate3Selector ++ node.abiEncode (calls.map (fun c => (c.1, allowFailure, c.2)))

/-- `range(0, length, size)` -/
def chunkStarts (size length : ℕ) : List ℕ := (List.range ((length + size - 1) / size)).map (· * size)

def chunk (size : ℕ) (calls : List Call) (start : ℕ) : List Call := (calls.drop start).take size

/-- the decoded answer for a chunk; `none` where the request or the decoding raises -/
def answered (node : Node) (size : ℕ) (calls : List Call) (allowFailure : Bool) (start : ℕ) : Option (List Result) :=
  (node.ethCall start (encodeAggregate3 node (chunk size calls start) allowFailure)).bind node.abiDecode

/-- what the output is extended by -/
def chunkResults (node : Node) (size : ℕ) (calls : List Call) (allowFailure : Bool) (start : ℕ) : List Result :=
  (answered node size calls allowFailure start).getD (List.replicate (chunk size calls start).length (false, []))

def multicall3Batch (node : Node) (size : ℕ) (calls : List Call) (allowFailure : Bool) : List Result :=
  (chunkStarts size calls.length).flatMap (chunkResults node size calls allowFailure)

/-- a result, the start of its chunk and its place in the answer -/
structure Placed where
  start : ℕ
  offset : ℕ
  result : Result

def placed (node : Node) (size : ℕ) (calls : List Call) (allowFailure : Bool) : List Placed :=
  (chunkStarts size calls.length).flatMap fun start =>
    (chunkResults node size calls allowFailure start).zipIdx.map fun r => ⟨start, r.2, r.1⟩

/-- as many results as calls, each from the chunk of the call at its place and from the place of the call in it -/
structure Aligned (node : Node) (size : ℕ) (calls : List Call) (allowFailure : Bool) : Prop where
  length : (multicall3Batch node size calls allowFailure).length = calls.length
  own : ∀ i p, (placed node size calls allowFailure)[i]? = some p → p.start = i / size * size ∧ p.offset = i % size

/-! ## Labels -/

/-- the chunks and places of the results, of `f start` results for a chunk -/
def labels (starts : List ℕ) (f : ℕ → ℕ) : List (ℕ × ℕ) := starts.flatMap fun start => (List.range (f start)).map (start, ·)

theorem labels_cons (s : ℕ) (starts : List ℕ) (f : ℕ → ℕ) :
    labels (s :: starts) f = (range (f s)).map (s, ·) ++ labels starts f := flatMap_cons

theorem countP_labels (f : ℕ → ℕ) {starts : List ℕ} (hnodup : starts.Nodup) (s : ℕ) :
    (labels starts f).countP (fun l => l.1 = s) = if s ∈ starts then f s else 0 := by
  induction starts with
  | nil => rfl
  | cons t starts ih =>
    obtain ⟨hout, hrest⟩ := nodup_cons.1 hnodup
    rw [labels_cons, countP_append, ih hrest, countP_map]
    by_cases hs : t = s
    · subst hs
      simp [hout, Function.comp_def]
    · simp [hs, Ne.symm hs]

theorem labels_congr {starts : List ℕ} {f g : ℕ → ℕ} (h : ∀ s ∈ starts, f s = g s) : labels starts f = labels starts g :=
  flatMap_congr fun s hs => by rw [h s hs]

/-- how many calls the chunk from `start` on has -/
def chunkLength (size length start : ℕ) : ℕ := min size (length - start)

/-- full chunks, and a last one of what is left -/
theorem labels_chunks {size : ℕ} (hsize : 0 < size) (length : ℕ) :
    labels (chunkStarts size length) (chunkLength size length) =
      (range length).map fun i => (i / size * size, i % size) := by
  have hfirst : ∀ k, k ≤ (length + size - 1) / size → labels ((range k).map (· * size)) (chunkLength size length) =
        (range (min length (k * size))).map fun i => (i / size * size, i % size) := by
    intro k
    induction k with
    | zero => intro _; simp [labels]
    | succ k ih =>
      intro hk
      have hstart : k * size < length := by
        have := (Nat.le_div_iff_mul_le hsize).1 hk
        rw [Nat.succ_mul] at this
        omega
      have hsplit : min length ((k + 1) * size) = k * size + chunkLength size length (k * size) := by
        rw [Nat.succ_mul, chunkLength]
        omega
      have happend : labels ((range (k + 1)).map (· * size)) (chunkLength size length) =
          labels ((range k).map (· * size)) (chunkLength size length) ++
            (range (chunkLength size length (k * size))).map (k * size, ·) := by
        simp [labels, range_succ]
      rw [happend, ih (Nat.le_of_succ_le hk), min_eq_right hstart.le, hsplit, range_add, map_append, map_map]
      congr 1
      refine map_congr_left fun o ho => ?_
      have ho' : o < size := (mem_range.1 ho).trans_le (min_le_left _ _)
      have hdiv : (k * size + o) / size = k := by
        rw [Nat.mul_comm, Nat.mul_add_div hsize, Nat.div_eq_of_lt ho', Nat.add_zero]
      have hmod : (k * size + o) % size = o := by
        rw [Nat.mul_comm, Nat.mul_add_mod, Nat.mod_eq_of_lt ho']
      simp [hdiv, hmod]
  have hcover : length ≤ (length + size - 1) / size * size := by
    have hlt := Nat.lt_div_mul_add (a := length + size - 1) hsize
    omega
  have hall := hfirst _ (le_refl _)
  rwa [min_eq_left hcover] at hall

theorem nodup_chunkStarts {size : ℕ} (hsize : 0 < size) (length : ℕ) : (chunkStarts size length).Nodup :=
  nodup_range.map fun _ _ h => Nat.eq_of_mul_eq_mul_right hsize h

/-! ## The batch -/

section Batch

variable (node : Node) (size : ℕ) (calls : List Call) (allowFailure : Bool)

theorem placed_results : (placed node size calls allowFailure).map Placed.result = multicall3Batch node size calls allowFailure := by
  simp only [placed, multicall3Batch, map_flatMap, map_map]
  exact flatMap_congr fun s _ => zipIdx_map_fst 0 _

theorem placed_labels : (placed node size calls allowFailure).map (fun p => (p.start, p.offset)) =
    labels (chunkStarts size calls.length) (fun s => (chunkResults node size calls allowFailure s).length) := by
  simp only [placed, labels, map_flatMap, map_map]
  refine flatMap_congr fun s _ => ?_
  rw [range_eq_range', ← zipIdx_map_snd 0, map_map]
  rfl

theorem length_chunk (start : ℕ) : (chunk size calls start).length = chunkLength size calls.length start := by
  simp [chunk, chunkLength]

theorem aligned_iff_labels : Aligned node size calls allowFailure ↔
    (placed node size calls allowFailure).map (fun p => (p.start, p.offset)) =
      (range calls.length).map fun i => (i / size * size, i % size) := by
  constructor
  · intro h
    have hlength := h.length
    rw [← placed_results, length_map] at hlength
    refine ext_getElem (by simp [hlength]) fun i hi hi' => ?_
    rw [length_map] at hi
    obtain ⟨hstart, hoffset⟩ := h.own i _ (getElem?_eq_getElem hi)
    simp [hstart, hoffset]
  · intro h
    have hlength : (placed node size calls allowFailure).length = calls.length := by simpa using congrArg length h
    refine ⟨by rw [← placed_results, length_map, hlength], fun i p hp => ?_⟩
    have hi : i < calls.length := by
      rw [← hlength]
      exact (List.getElem?_eq_some_iff.1 hp).1
    have hlabel := congrArg (fun l => l[i]?) h
    simp only [getElem?_map, hp, getElem?_range hi, Option.map_some] at hlabel
    exact Prod.mk.inj (Option.some.inj hlabel)

end Batch

/-- **Alignment.** A batch stays aligned exactly when every answer that decodes has as many results as its chunk has calls. -/
theorem aligned_iff {size : ℕ} (hsize : 0 < size) (node : Node) (calls : List Call) (allowFailure : Bool) :
    Aligned node size calls allowFailure ↔ ∀ start ∈ chunkStarts size calls.length, ∀ results,
      answered node size calls allowFailure start = some results → results.length = (chunk size calls start).length := by
  have hlength : ∀ s, (chunkResults node size calls allowFailure s).length = chunkLength size calls.length s ↔
      ∀ results, answered node size calls allowFailure s = some results → results.length = (chunk size calls s).length := by
    intro s
    unfold chunkResults
    cases answered node size calls allowFailure s <;> simp [length_chunk]
  rw [aligned_iff_labels, placed_labels, ← labels_chunks hsize]
  constructor
  · intro h s hs
    have hcount := congrArg (countP (fun l : ℕ × ℕ => l.1 = s)) h
    rw [countP_labels _ (nodup_chunkStarts hsize _), countP_labels _ (nodup_chunkStarts hsize _), if_pos hs, if_pos hs] at hcount
    exact (hlength s).1 hcount
  · intro h
    exact labels_congr fun s hs => (hlength s).2 (h s hs)

/-- a node that answers every chunk with the same array -/
def constantNode (results : List Result) : Node := ⟨fun _ => [], fun _ => some results, fun _ _ => some []⟩

theorem aligned_iff_pair : Aligned (constantNode [(true, [])]) 1 [("0x1", []), ("0x2", [])] true :=
  (aligned_iff (by decide) (constantNode [(true, [])]) [("0x1", []), ("0x2", [])] true).2 (by
    intro start hstart results h
    cases h
    revert start
    decide)

/-- a single call answered with an empty array: no result at all -/
theorem empty_answer_lost : ¬ Aligned (constantNode []) batchChunkSize [("0x1", [])] true := by
  intro h
  exact absurd h.length (by decide +kernel)

end Teardrop.Multicall
