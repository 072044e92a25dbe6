/-
The migrations directory as `migrations/runner.py` reads it: `_discover_migrations` lists the scripts in the order of
their file names, `_discover_squashes` reads the `.replaces` manifests. A manifest names the versions its baseline
replaces, one on a line; a version may be a baseline itself.

`Versions` is what the two globs return, in any order. The manifests' texts are UTF-8 already decoded.
-/
import Mathlib
import Teardrop.Core.Dict
import Teardrop.Core.Py
import Teardrop.Core.PyText

namespace Teardrop.Migrations

open Py PyText

/-! ## File names -/

/-- `Path.stem`: the name up to its last dot, unless nothing stands before or after it -/
def stemChars (name : List Char) : List Char :=
  let suffix := name.reverse.takeWhile (fun c => c ≠ '.')
  let front := (name.reverse.dropWhile (fun c => c ≠ '.')).tail
  if front ≠ [] ∧ suffix ≠ [] then front.reverse else name

def stem (name : String) : String := String.ofList (stemChars name.toList)

theorem stemChars_ne_nil {name : List Char} (h : name ≠ []) : stemChars name ≠ [] := by
  unfold stemChars
  by_cases hdot : (name.reverse.dropWhile (fun c => c ≠ '.')).tail ≠ [] ∧ name.reverse.takeWhile (fun c => c ≠ '.') ≠ []
  · rw [if_pos hdot]
    simpa using hdot.1
  · rw [if_neg hdot]
    exact h

theorem stemChars_sql {name : List Char} (h : name ≠ []) : stemChars (name ++ ".sql".toList) = name := by
  simp [stemChars, h]

theorem stem_ne_empty {name : String} (h : name ≠ "") : stem name ≠ "" := by
  intro hstem
  have hchars : (stem name).toList = [] := by rw [hstem]; rfl
  rw [stem, String.toList_ofList] at hchars
  apply stemChars_ne_nil _ hchars
  intro hnil
  exact h (String.toList_inj.1 hnil)

variable {baseline : String} {owners : Dict String String}

theorem stem_sql (h : baseline ≠ "") : stem (baseline ++ ".sql") = baseline := by
  have hne : baseline.toList ≠ [] := fun hnil => h (String.toList_inj.1 hnil)
  rw [stem, String.toList_append, stemChars_sql hne, String.ofList_toList]

/-- `_VERSION_NAME_RE` -/
def isVersionName : List Char → Bool
  | [] => false
  | c :: cs => c.isAlphanum && cs.all (fun d => d.isAlphanum || d ∈ ['_', '.', '-'])

/-! ## The directory -/

structure Versions where
  sqlFiles : List String
  /-- the manifests' names and texts -/
  manifests : List (String × String)
  sql_nodup : sqlFiles.Nodup
  sql_suffix : ∀ f ∈ sqlFiles, ".sql".toList <:+ f.toList
  manifests_nodup : (manifests.map Prod.fst).Nodup
  manifests_suffix : ∀ m ∈ manifests, ".replaces".toList <:+ m.1.toList

def discoverMigrations (dir : Versions) : List String := dir.sqlFiles.insertionSort (fun a b => a ≤ b)

variable {dir : Versions}

theorem mem_discoverMigrations {f : String} : f ∈ discoverMigrations dir ↔ f ∈ dir.sqlFiles :=
  (List.perm_insertionSort _ dir.sqlFiles).mem_iff

theorem discoverMigrations_sorted (dir : Versions) : (discoverMigrations dir).Pairwise (fun a b => a < b) := by
  have hle : (discoverMigrations dir).Pairwise (fun a b => a ≤ b) := List.pairwise_insertionSort (fun a b : String => a ≤ b) dir.sqlFiles
  have hne : (discoverMigrations dir).Pairwise (fun a b => a ≠ b) := (List.perm_insertionSort _ dir.sqlFiles).nodup_iff.2 dir.sql_nodup
  exact (hle.and hne).imp (fun h => lt_of_le_of_ne h.1 h.2)

/-! ## The manifests -/

/-- where `str.splitlines` ends a line -/
def isLineEnd (c : Char) : Bool :=
  [0x0a, 0x0b, 0x0c, 0x0d, 0x1c, 0x1d, 0x1e, 0x85, 0x2028, 0x2029].contains c.toNat

/-- `str.splitlines`, behind the characters of an unfinished line in reverse -/
def splitLines (line : List Char) : List Char → List (List Char)
  | [] => if line = [] then [] else [line.reverse]
  | '\r' :: '\n' :: cs => line.reverse :: splitLines [] cs
  | c :: cs => if isLineEnd c then line.reverse :: splitLines [] cs else splitLines (c :: line) cs

/-- one line of a manifest; `owners` maps the versions replaced so far to their baselines -/
def readLine (manifest baseline : String) (lineNumber : ℕ) (rawLine : List Char) (owners : Dict String String)
    (replaced : List String) : Call (Dict String String × List String) :=
  let line := strip rawLine
  let version := String.ofList line
  if line = [] ∨ line.head? = some '#' then
    .ok (owners, replaced)
  else if ¬ isVersionName line then
    .error (.runtimeError s!"Invalid migration stem in {manifest}:{lineNumber}")
  else if version = baseline then
    .error (.runtimeError s!"Squash manifest {manifest} replaces itself")
  else if version ∈ replaced then
    .error (.runtimeError s!"Duplicate migration {version} in {manifest}")
  else match owners.get? version with
    | some previousOwner => .error (.runtimeError s!"Migration {version} is replaced by both {previousOwner} and {baseline}")
    | none => .ok (owners.set version baseline, replaced ++ [version])

def readLines (manifest baseline : String) :
    ℕ → List (List Char) → Dict String String → List String → Call (Dict String String × List String)
  | _, [], owners, replaced => .ok (owners, replaced)
  | lineNumber, rawLine :: rawLines, owners, replaced => do
    let read ← readLine manifest baseline lineNumber rawLine owners replaced
    readLines manifest baseline (lineNumber + 1) rawLines read.1 read.2

/-- the baselines read so far, with the versions each replaces -/
abbrev Squashes := Dict String (List String)

def readManifest (dir : Versions) (manifest : String × String) (owners : Dict String String) (squashes : Squashes) :
    Call (Dict String String × Squashes) :=
  let name := manifest.1
  let baseline := stem name
  if baseline ++ ".sql" ∉ dir.sqlFiles then
    .error (.runtimeError s!"Squash manifest {name} has no matching SQL baseline")
  else do
    let read ← readLines name baseline 1 (splitLines [] manifest.2.toList) owners []
    if read.2 = [] then
      .error (.runtimeError s!"Squash manifest {name} is empty")
    else
      .ok (read.1, squashes.set baseline read.2)

def readManifests (dir : Versions) : List (String × String) → Dict String String → Squashes → Call (Dict String String × Squashes)
  | [], owners, squashes => .ok (owners, squashes)
  | manifest :: manifests, owners, squashes => do
    let read ← readManifest dir manifest owners squashes
    readManifests dir manifests read.1 read.2

def discoverSquashes (dir : Versions) : Call Squashes := do
  let read ← readManifests dir (dir.manifests.insertionSort (fun a b => a.1 ≤ b.1)) Dict.empty Dict.empty
  return read.2

/-! ## What is accepted -/

/-- the squashes of a directory; the versions a baseline replaces belong to it alone -/
structure Accepted (dir : Versions) (squashes : Squashes) : Prop where
  script : ∀ e ∈ squashes.entries, ∃ f ∈ discoverMigrations dir, stem f = e.1
  replaces : ∀ e ∈ squashes.entries, e.2 ≠ []
  other : ∀ e ∈ squashes.entries, e.1 ∉ e.2
  apart : ∀ e ∈ squashes.entries, ∀ e' ∈ squashes.entries, ∀ v ∈ e.2, v ∈ e'.2 → e = e'

/-- while the lines of a manifest are read: earlier owners stay, and what the baseline replaces so far is its own -/
structure Lines (baseline : String) (before owners : Dict String String) (replaced : List String) : Prop where
  kept : ∀ v b, before.get? v = some b → owners.get? v = some b
  mine : ∀ v ∈ replaced, v ≠ baseline ∧ owners.get? v = some baseline

variable {squashes : Squashes}

variable {before : Dict String String} {replaced : List String} {read : Dict String String × List String}

theorem readLine_lines {manifest : String} {n : ℕ} {rawLine : List Char} (h : Lines baseline before owners replaced)
    (hread : readLine manifest baseline n rawLine owners replaced = .ok read) : Lines baseline before read.1 read.2 := by
  simp only [readLine] at hread
  split_ifs at hread with hblank hname hself hdup
  · obtain rfl := Except.ok.inj hread
    exact h
  · split at hread
    · cases hread
    · rename_i hfree
      obtain rfl := Except.ok.inj hread
      constructor
      · intro v b hv
        rw [Dict.get?_set, if_neg]
        · exact h.kept v b hv
        · rintro rfl
          rw [h.kept _ b hv] at hfree
          cases hfree
      · intro v hv
        rw [Dict.get?_set]
        rcases List.mem_append.1 hv with hv | hv
        · obtain ⟨hne, hmine⟩ := h.mine v hv
          refine ⟨hne, ?_⟩
          rw [hmine, ite_self]
        · obtain rfl := List.mem_singleton.1 hv
          exact ⟨hself, if_pos rfl⟩

theorem readLines_lines {manifest : String} {rawLines : List (List Char)} {n : ℕ}
    (h : Lines baseline before owners replaced) (hread : readLines manifest baseline n rawLines owners replaced = .ok read) :
    Lines baseline before read.1 read.2 := by
  induction rawLines generalizing n owners replaced with
  | nil =>
    obtain rfl := Except.ok.inj hread
    exact h
  | cons rawLine rawLines ih =>
    obtain ⟨line, hline, hrest⟩ := bind_eq_ok hread
    exact ih (readLine_lines h hline) hrest

/-- while the manifests are read: every version replaced so far has the owner that replaces it -/
structure Owned (dir : Versions) (owners : Dict String String) (squashes : Squashes) : Prop where
  script : ∀ e ∈ squashes.entries, ∃ f ∈ discoverMigrations dir, stem f = e.1
  replaces : ∀ e ∈ squashes.entries, e.2 ≠ []
  other : ∀ e ∈ squashes.entries, e.1 ∉ e.2
  owned : ∀ e ∈ squashes.entries, ∀ v ∈ e.2, owners.get? v = some e.1

theorem readManifest_owned {manifest : String × String} {read : Dict String String × Squashes} (hname : manifest.1 ≠ "")
    (h : Owned dir owners squashes) (hread : readManifest dir manifest owners squashes = .ok read) :
    Owned dir read.1 read.2 := by
  simp only [readManifest] at hread
  split_ifs at hread with hfile
  obtain ⟨lines, hlines, hread⟩ := bind_eq_ok hread
  have hstart : Lines (stem manifest.1) owners owners [] := ⟨fun _ _ hv => hv, fun _ hv => (List.not_mem_nil hv).elim⟩
  obtain ⟨hkept, hmine⟩ := readLines_lines hstart hlines
  split_ifs at hread with hempty
  obtain rfl := Except.ok.inj hread
  constructor
  · intro e he
    rcases Dict.mem_set he with rfl | he
    · exact ⟨_, mem_discoverMigrations.2 hfile, stem_sql (stem_ne_empty hname)⟩
    · exact h.script e he
  · intro e he
    rcases Dict.mem_set he with rfl | he
    · exact hempty
    · exact h.replaces e he
  · intro e he
    rcases Dict.mem_set he with rfl | he
    · exact fun hself => (hmine _ hself).1 rfl
    · exact h.other e he
  · intro e he v hv
    rcases Dict.mem_set he with rfl | he
    · exact (hmine v hv).2
    · exact hkept v e.1 (h.owned e he v hv)

theorem readManifests_owned {manifests : List (String × String)} {read : Dict String String × Squashes}
    (hnames : ∀ m ∈ manifests, m.1 ≠ "") (h : Owned dir owners squashes)
    (hread : readManifests dir manifests owners squashes = .ok read) : Owned dir read.1 read.2 := by
  induction manifests generalizing owners squashes with
  | nil =>
    obtain rfl := Except.ok.inj hread
    exact h
  | cons manifest manifests ih =>
    obtain ⟨one, hone, hrest⟩ := bind_eq_ok hread
    obtain ⟨hname, hnames⟩ := List.forall_mem_cons.1 hnames
    exact ih hnames (readManifest_owned hname h hone) hrest

/-- **What is accepted.** -/
theorem discoverSquashes_accepted (h : discoverSquashes dir = .ok squashes) : Accepted dir squashes := by
  obtain ⟨read, hread, hret⟩ := bind_eq_ok h
  obtain rfl := Except.ok.inj hret
  have hnames : ∀ m ∈ dir.manifests.insertionSort (fun a b => a.1 ≤ b.1), m.1 ≠ "" := by
    intro m hm hempty
    have hsuffix := dir.manifests_suffix m ((List.perm_insertionSort _ dir.manifests).mem_iff.1 hm)
    rw [hempty] at hsuffix
    exact absurd (List.suffix_nil.1 hsuffix) (by decide)
  have hstart : Owned dir Dict.empty Dict.empty := by
    constructor <;> exact fun _ he => (List.not_mem_nil he).elim
  obtain ⟨hscript, hreplaces, hother, howned⟩ := readManifests_owned hnames hstart hread
  refine ⟨hscript, hreplaces, hother, ?_⟩
  intro e he e' he' v hv hv'
  have hsame : e.1 = e'.1 := by
    have howner := howned e he v hv
    rw [howned e' he' v hv'] at howner
    exact (Option.some.inj howner).symm
  exact List.inj_on_of_nodup_map read.2.nodup he he' hsame

end Teardrop.Migrations
