import Mathlib.Data.List.Basic

/-!
# Scans of a directory tree

A scan visits every file of a directory tree in order, collects what it reads, and stops at the
first file it cannot read. A hole is a place for one file; a scan of the filled tree is one of what
stands before the hole, of the file, and of what stands after it. -/

namespace Tree
open List

inductive Node where
  | file (content : List UInt8)
  | directory (entries : List (String × Node))
  | other

/-- Between entries of a directory, or in one of its directories. -/
inductive Hole where
  | here (before after : List (String × Node))
  | inside (before : List (String × Node)) (name : String) (hole : Hole)
      (after : List (String × Node))

variable {ε ρ : Type*} (read : List UInt8 → Except ε (List ρ)) (irregular : ε)

mutual

def scanNode : Node → Except ε (List ρ)
  | .file content => read content
  | .directory entries => scan entries
  | .other => .error irregular

def scan : List (String × Node) → Except ε (List ρ)
  | [] => .ok []
  | (_, child) :: entries =>
    match scanNode child with
    | .error e => .error e
    | .ok first =>
      match scan entries with
      | .error e => .error e
      | .ok rest => .ok (first ++ rest)

end

def scanPlace : Option (List UInt8) → Except ε (List ρ)
  | none => .ok []
  | some content => read content

namespace Hole

/-- The tree with a file, or with none, in the hole. -/
def fill (name : String) (content : Option (List UInt8)) : Hole → List (String × Node)
  | here before after =>
    before ++ (content.map fun content => (name, Node.file content)).toList ++ after
  | inside before dir hole after => before ++ (dir, .directory (hole.fill name content)) :: after

def before : Hole → List (String × Node)
  | here before _ => before
  | inside before _ hole _ => before ++ hole.before

def after : Hole → List (String × Node)
  | here _ after => after
  | inside _ _ hole after => hole.after ++ after

end Hole

variable {read irregular}
variable {name : String} {records : List ρ}

lemma scan_cons {node entries} :
    scan read irregular ((name, node) :: entries) = .ok records ↔
      ∃ first rest, scanNode read irregular node = .ok first ∧
        scan read irregular entries = .ok rest ∧ records = first ++ rest := by
  rw [scan]
  constructor
  · intro h
    cases hf : scanNode read irregular node with
    | error e =>
      rw [hf] at h
      cases h
    | ok first =>
      cases hr : scan read irregular entries with
      | error e =>
        rw [hf, hr] at h
        cases h
      | ok rest =>
        rw [hf, hr] at h
        cases h
        exact ⟨first, rest, rfl, rfl, rfl⟩
  · rintro ⟨first, rest, hf, hr, rfl⟩
    rw [hf, hr]

lemma scan_append {xs ys} :
    scan read irregular (xs ++ ys) = .ok records ↔
      ∃ first rest, scan read irregular xs = .ok first ∧ scan read irregular ys = .ok rest ∧
        records = first ++ rest := by
  induction xs generalizing records with
  | nil =>
    constructor
    · intro h
      exact ⟨[], records, rfl, h, rfl⟩
    · rintro ⟨first, rest, hf, hr, rfl⟩
      cases hf
      exact hr
  | cons entry xs ih =>
    rw [cons_append, scan_cons]
    constructor
    · rintro ⟨first, rest, hf, hr, rfl⟩
      obtain ⟨middle, last, hm, hl, rfl⟩ := ih.1 hr
      refine ⟨first ++ middle, last, ?_, hl, ?_⟩
      · exact scan_cons.2 ⟨first, middle, hf, hm, rfl⟩
      · rw [append_assoc]
    · rintro ⟨front, last, hfront, hl, rfl⟩
      obtain ⟨first, middle, hf, hm, rfl⟩ := scan_cons.1 hfront
      refine ⟨first, middle ++ last, hf, ?_, ?_⟩
      · exact ih.2 ⟨middle, last, hm, hl, rfl⟩
      · rw [append_assoc]

variable {content : Option (List UInt8)}

lemma scan_place :
    scan read irregular (content.map fun content => (name, Node.file content)).toList =
      .ok records ↔ scanPlace read content = .ok records := by
  cases content with
  | none => exact Iff.rfl
  | some content =>
    change scan read irregular [(name, .file content)] = .ok records ↔ read content = .ok records
    rw [scan_cons]
    constructor
    · rintro ⟨first, rest, hf, hr, rfl⟩
      cases hr
      rw [append_nil]
      exact hf
    · intro h
      exact ⟨records, [], h, rfl, (append_nil records).symm⟩

lemma scan_fill {hole : Hole} :
    scan read irregular (hole.fill name content) = .ok records ↔
      ∃ first middle last, scan read irregular hole.before = .ok first ∧
        scanPlace read content = .ok middle ∧ scan read irregular hole.after = .ok last ∧
        records = first ++ middle ++ last := by
  induction hole generalizing records with
  | here before after =>
    rw [Hole.fill, scan_append]
    constructor
    · rintro ⟨front, last, hfront, hl, rfl⟩
      obtain ⟨first, middle, hf, hm, rfl⟩ := scan_append.1 hfront
      exact ⟨first, middle, last, hf, scan_place.1 hm, hl, rfl⟩
    · rintro ⟨first, middle, last, hf, hm, hl, rfl⟩
      refine ⟨first ++ middle, last, ?_, hl, rfl⟩
      exact scan_append.2 ⟨first, middle, hf, scan_place.2 hm, rfl⟩
  | inside before dir hole after ih =>
    rw [Hole.fill, scan_append]
    constructor
    · rintro ⟨outer, rest, ho, hrest, rfl⟩
      obtain ⟨inner, last, hi, hl, rfl⟩ := scan_cons.1 hrest
      rw [scanNode] at hi
      obtain ⟨first, middle, tail, hf, hm, ht, rfl⟩ := ih.1 hi
      refine ⟨outer ++ first, middle, tail ++ last, ?_, hm, ?_, ?_⟩
      · exact scan_append.2 ⟨outer, first, ho, hf, rfl⟩
      · exact scan_append.2 ⟨tail, last, ht, hl, rfl⟩
      · simp only [append_assoc]
    · rintro ⟨front, middle, back, hfront, hm, hback, rfl⟩
      obtain ⟨outer, first, ho, hf, rfl⟩ := scan_append.1 hfront
      obtain ⟨tail, last, ht, hl, rfl⟩ := scan_append.1 hback
      refine ⟨outer, first ++ middle ++ tail ++ last, ho, ?_, ?_⟩
      · apply scan_cons.2
        refine ⟨first ++ middle ++ tail, last, ?_, hl, rfl⟩
        rw [scanNode]
        exact ih.2 ⟨first, middle, tail, hf, hm, ht, rfl⟩
      · simp only [append_assoc]

/-- A scan that gets through gets through with other contents in the hole if it can read these, and
then it still collects what it collects without them. -/
lemma scan_fill_keeps {hole : Hole} {existing}
    (scanned : scan read irregular (hole.fill name existing) = .ok records) :
    (∃ others records', scan read irregular (hole.fill name none) = .ok others ∧
      scan read irregular (hole.fill name content) = .ok records' ∧ others.Sublist records') ↔
      ∃ place, scanPlace read content = .ok place := by
  obtain ⟨first, _, last, hf, -, hl, -⟩ := scan_fill.1 scanned
  constructor
  · rintro ⟨_, _, -, h, -⟩
    obtain ⟨_, place, _, -, hp, -, -⟩ := scan_fill.1 h
    exact ⟨place, hp⟩
  · rintro ⟨place, hp⟩
    refine ⟨first ++ [] ++ last, first ++ place ++ last, ?_, ?_, ?_⟩
    · exact scan_fill.2 ⟨first, [], last, hf, rfl, hl, rfl⟩
    · exact scan_fill.2 ⟨first, place, last, hf, hp, hl, rfl⟩
    · exact ((nil_sublist place).append_left first).append_right last

end Tree
