import Mathlib.Data.List.Infix
import Scriptorium.Text.Fence

/-! # Nesting of fences

A counter runs over the lines: a bare fence takes one away, a fence with a tag adds one. Lines are
balanced when the counter never falls below zero and ends there; the fence that closes a block is
the one behind balanced lines.
-/

namespace Scriptorium.Text

def fenceStep (l : List Char) : Int :=
  if stripBlanks l = fenceMark then -1 else if isFence l then 1 else 0

/-- The blocks that lines open, less those that they close. -/
def nesting : List (List Char) → Int
  | [] => 0
  | l :: ls => fenceStep l + nesting ls

@[simp] theorem nesting_nil : nesting [] = 0 := rfl

@[simp] theorem nesting_cons (l : List Char) (ls : List (List Char)) :
    nesting (l :: ls) = fenceStep l + nesting ls := rfl

theorem fenceStep_of_bare {l : List Char} (h : stripBlanks l = fenceMark) : fenceStep l = -1 :=
  if_pos h

/-- Lines within `depth` open blocks that close none but their own. -/
def StaysOpen (depth : Int) (ls : List (List Char)) : Prop := ∀ p, p <+: ls → 0 ≤ depth + nesting p

theorem staysOpen_nil {depth : Int} : StaysOpen depth [] ↔ 0 ≤ depth := by
  simp [StaysOpen]

theorem staysOpen_cons {depth : Int} {l : List Char} {ls : List (List Char)} :
    StaysOpen depth (l :: ls) ↔ 0 ≤ depth ∧ StaysOpen (depth + fenceStep l) ls := by
  constructor
  · intro h
    refine ⟨by simpa using h [] List.nil_prefix, fun p hp => ?_⟩
    have hlonger := h (l :: p) ((List.prefix_cons_inj l).mpr hp)
    rw [nesting_cons] at hlonger
    omega
  · rintro ⟨hdepth, h⟩ p hp
    rcases List.prefix_cons_iff.mp hp with rfl | ⟨front, rfl, hfront⟩
    · simpa using hdepth
    · have hrest := h front hfront
      rw [nesting_cons]
      omega

/-- Lines that close every block that they open, and no other. -/
structure Balanced (ls : List (List Char)) : Prop where
  nonneg : ∀ p, p <+: ls → 0 ≤ nesting p
  closed : nesting ls = 0

instance (ls : List (List Char)) : Decidable (Balanced ls) :=
  decidable_of_iff ((∀ p ∈ ls.inits, 0 ≤ nesting p) ∧ nesting ls = 0)
    ⟨fun h => ⟨fun p hp => h.1 p ((List.mem_inits p ls).mpr hp), h.2⟩,
      fun h => ⟨fun p hp => h.nonneg p ((List.mem_inits p ls).mp hp), h.closed⟩⟩

theorem balanced_iff {ls : List (List Char)} : Balanced ls ↔ StaysOpen 0 ls ∧ nesting ls = 0 := by
  constructor
  · intro h
    exact ⟨fun p hp => by simpa using h.nonneg p hp, h.closed⟩
  · rintro ⟨hopen, hclosed⟩
    exact ⟨fun p hp => by simpa using hopen p hp, hclosed⟩

/-! ## The closing fence -/

/-- Lines cut at a bare fence behind which no block is open, where the first of them stands within
`depth` blocks and one more. -/
def Closes (depth : Int) (ls before rest : List (List Char)) : Prop :=
  ∃ l, ls = before ++ l :: rest ∧ stripBlanks l = fenceMark ∧
    StaysOpen depth before ∧ depth + nesting before = 0

theorem closes_bare {l : List Char} (hl : stripBlanks l = fenceMark)
    {ls before rest : List (List Char)} :
    Closes 0 (l :: ls) before rest ↔ before = [] ∧ rest = ls := by
  constructor
  · rintro ⟨k, hsplit, hk, hopen, -⟩
    cases before with
    | nil => exact ⟨rfl, (List.cons.inj hsplit).2.symm⟩
    | cons b before =>
        -- A bare fence among the lines would close a block that is not theirs.
        obtain ⟨rfl, -⟩ := List.cons.inj hsplit
        have hless := (staysOpen_cons.mp hopen).2 [] List.nil_prefix
        rw [fenceStep_of_bare hl] at hless
        exact absurd hless (by decide)
  · rintro ⟨rfl, rfl⟩
    exact ⟨l, rfl, hl, staysOpen_nil.mpr (Int.le_refl 0), rfl⟩

theorem closes_cons {depth : Int} {l : List Char} (hdepth : 0 ≤ depth)
    (hl : stripBlanks l = fenceMark → depth ≠ 0) {ls before rest : List (List Char)} :
    Closes depth (l :: ls) before rest ↔
      ∃ b, Closes (depth + fenceStep l) ls b rest ∧ l :: b = before := by
  constructor
  · rintro ⟨k, hsplit, hk, hopen, hclosed⟩
    cases before with
    | nil =>
        obtain ⟨rfl, -⟩ := List.cons.inj hsplit
        exact absurd (by simpa using hclosed) (hl hk)
    | cons b before =>
        obtain ⟨rfl, hrest⟩ := List.cons.inj hsplit
        rw [nesting_cons] at hclosed
        exact ⟨before, ⟨k, hrest, hk, (staysOpen_cons.mp hopen).2, by omega⟩, rfl⟩
  · rintro ⟨b, ⟨k, rfl, hk, hopen, hclosed⟩, rfl⟩
    refine ⟨k, rfl, hk, staysOpen_cons.mpr ⟨hdepth, hopen⟩, ?_⟩
    rw [nesting_cons]
    omega

theorem map_cons_eq_some {l : List Char} {ls before rest : List (List Char)} {depth : Nat} :
    ((toClosing depth ls).map fun (b, a) => (l :: b, a)) = some (before, rest) ↔
      ∃ b, toClosing depth ls = some (b, rest) ∧ l :: b = before := by
  simp only [Option.map_eq_some_iff, Prod.exists, Prod.mk.injEq]
  exact ⟨fun ⟨b, _, h, hb, hrest⟩ => ⟨b, hrest ▸ h, hb⟩, fun ⟨b, h, hb⟩ => ⟨b, _, h, hb, rfl⟩⟩

theorem toClosing_eq_some_iff {depth : Nat} {ls before rest : List (List Char)} :
    toClosing depth ls = some (before, rest) ↔ Closes depth ls before rest := by
  fun_induction toClosing depth ls generalizing before with
  | case1 => simp [Closes]
  | case2 l ls hl =>
      rw [Int.natCast_zero, closes_bare hl, Option.some.injEq, Prod.mk.injEq]
      exact and_congr eq_comm eq_comm
  | case3 l ls hl d ih =>
      have hstep : ((d + 1 : Nat) : Int) + fenceStep l = d := by
        rw [fenceStep_of_bare hl]
        omega
      rw [map_cons_eq_some, closes_cons (by omega) (fun _ => by omega), hstep]
      exact exists_congr fun b => and_congr_left' ih
  | case4 d l ls hl ih =>
      have hstep : (d : Int) + fenceStep l =
          ((if isFence l = true then d + 1 else d : Nat) : Int) := by
        rw [fenceStep, if_neg hl]
        split <;> simp
      rw [map_cons_eq_some, closes_cons (by omega) (fun h => absurd h hl), hstep]
      exact exists_congr fun b => and_congr_left' ih

/-- What follows the fence that opens a block is the block and the fence that closes it exactly if
the lines before the last one are balanced and the last one is a bare fence. -/
theorem toClosing_balanced {ls body : List (List Char)} :
    toClosing 0 ls = some (body, []) ↔
      ∃ last, ls = body ++ [last] ∧ stripBlanks last = fenceMark ∧ Balanced body := by
  rw [toClosing_eq_some_iff]
  simp [Closes, balanced_iff]

end Scriptorium.Text
