import Mathlib.Data.Set.Insert
import Mathlib.Order.Basic
import Mathlib.Tactic.Common

/-!
# Blocks that tile an interval

Blocks of memory, named by the elements of a set, that fill an interval `[low, high)` without gaps
and without overlap.  This is the layout of a heap of variable-sized blocks that grows downwards
and is kept compact.

Three edits keep a tiling: a new block put in front, a block that changes its size at its lower
end and a block taken out.  In the last two the blocks below the edited one move by the
difference.  The moved positions are described by equations on the blocks in use only, so that a
program may leave anything in the entries it does not use.
-/

namespace Tiling

variable {Block : Type*}

/-- The blocks of `used` fill `[low, high)`, each cell in one block. -/
structure Tiles (used : Set Block) (start length : Block → ℕ) (low high : ℕ) : Prop where
  low_le_start : ∀ block ∈ used, low ≤ start block
  stop_le_high : ∀ block ∈ used, start block + length block ≤ high
  length_pos : ∀ block ∈ used, 0 < length block
  apart : ∀ first ∈ used, ∀ second ∈ used, first ≠ second →
    start first + length first ≤ start second ∨ start second + length second ≤ start first
  cover : ∀ cell, low ≤ cell → cell < high →
    ∃ block ∈ used, start block ≤ cell ∧ cell < start block + length block

theorem tiles_empty (start length : Block → ℕ) (high : ℕ) :
    Tiles (∅ : Set Block) start length high high where
  low_le_start := by simp
  stop_le_high := by simp
  length_pos := by simp
  apart := by simp
  cover cell hlow hhigh := by omega

namespace Tiles

variable {used : Set Block} {start length start' length' : Block → ℕ} {low high size : ℕ}
  {block : Block}

variable (h : Tiles used start length low high)
include h

theorem congr
    (hstart : ∀ block ∈ used, start' block = start block)
    (hlength : ∀ block ∈ used, length' block = length block) :
    Tiles used start' length' low high where
  low_le_start block hmem := by
    rw [hstart block hmem]
    exact h.low_le_start block hmem
  stop_le_high block hmem := by
    rw [hstart block hmem, hlength block hmem]
    exact h.stop_le_high block hmem
  length_pos block hmem := by
    rw [hlength block hmem]
    exact h.length_pos block hmem
  apart first hfirst second hsecond hne := by
    rw [hstart first hfirst, hstart second hsecond, hlength first hfirst, hlength second hsecond]
    exact h.apart first hfirst second hsecond hne
  cover cell hlow hhigh := by
    obtain ⟨block, hmem, hcell⟩ := h.cover cell hlow hhigh
    refine ⟨block, hmem, ?_⟩
    rwa [hstart block hmem, hlength block hmem]

theorem below_or_above (hblock : block ∈ used)
    {other : Block} (hother : other ∈ used) (hne : other ≠ block) :
    start other + length other ≤ start block ∧ start other < start block ∨
      start block + length block ≤ start other := by
  have hapart := h.apart other hother block hblock hne
  have hpos := h.length_pos other hother
  omega

theorem cover_other (block : Block) {cell : ℕ}
    (hlow : low ≤ cell) (hhigh : cell < high)
    (hout : cell < start block ∨ start block + length block ≤ cell) :
    ∃ other ∈ used, other ≠ block ∧ start other ≤ cell ∧ cell < start other + length other := by
  obtain ⟨other, hother, hin⟩ := h.cover cell hlow hhigh
  refine ⟨other, hother, ?_, hin⟩
  rintro rfl
  omega

theorem insert (hfresh : block ∉ used)
    (hpos : 0 < size) (hroom : size ≤ low) (hlow : low ≤ high)
    (hstart : start' block = low - size) (hlength : length' block = size)
    (hstarts : ∀ other ∈ used, start' other = start other)
    (hlengths : ∀ other ∈ used, length' other = length other) :
    Tiles (Insert.insert block used) start' length' (low - size) high := by
  have hrest := h.congr hstarts hlengths
  constructor
  · rintro other (rfl | hother)
    · omega
    · have := hrest.low_le_start other hother
      omega
  · rintro other (rfl | hother)
    · omega
    · exact hrest.stop_le_high other hother
  · rintro other (rfl | hother)
    · omega
    · exact hrest.length_pos other hother
  · rintro first (rfl | hfirst) second (rfl | hsecond) hdistinct
    · exact absurd rfl hdistinct
    · have := hrest.low_le_start second hsecond
      omega
    · have := hrest.low_le_start first hfirst
      omega
    · exact hrest.apart first hfirst second hsecond hdistinct
  · intro cell hcell hhigh
    rcases Nat.lt_or_ge cell low with hbelow | habove
    · exact ⟨block, Set.mem_insert block used, by omega, by omega⟩
    · obtain ⟨other, hother, hin⟩ := hrest.cover cell habove hhigh
      exact ⟨other, Set.mem_insert_of_mem block hother, hin⟩

/-- A block gets a new size and keeps its upper end: it and the blocks below it move. -/
theorem resize (hblock : block ∈ used)
    (hpos : 0 < size) (hroom : size ≤ low + length block)
    (hlength : length' block = size)
    (hlengths : ∀ other ∈ used, other ≠ block → length' other = length other)
    (hmoved : ∀ other ∈ used, start other < start block + length block →
      start' other = start other + length block - size)
    (hkept : ∀ other ∈ used, start block + length block ≤ start other →
      start' other = start other) :
    Tiles used start' length' (low + length block - size) high := by
  have hlow := h.low_le_start block hblock
  have hhigh := h.stop_le_high block hblock
  have hstart : start' block = start block + length block - size :=
    hmoved block hblock (by have := h.length_pos block hblock; omega)
  -- where a block other than the edited one goes
  have hplace : ∀ other ∈ used, other ≠ block → length' other = length other ∧
      (start other + length other ≤ start block ∧
          start' other = start other + length block - size ∨
        start block + length block ≤ start other ∧ start' other = start other) := by
    intro other hother hne
    refine ⟨hlengths other hother hne, ?_⟩
    rcases h.below_or_above hblock hother hne with hbelow | habove
    · exact .inl ⟨hbelow.1, hmoved other hother (by omega)⟩
    · exact .inr ⟨habove, hkept other hother habove⟩
  constructor
  · intro other hother
    have := h.low_le_start other hother
    by_cases hne : other = block
    · subst hne
      omega
    · have := hplace other hother hne
      omega
  · intro other hother
    have := h.stop_le_high other hother
    by_cases hne : other = block
    · subst hne
      omega
    · have := hplace other hother hne
      omega
  · intro other hother
    by_cases hne : other = block
    · subst hne
      omega
    · have := hplace other hother hne
      have := h.length_pos other hother
      omega
  · intro first hfirst second hsecond hdistinct
    have := h.apart first hfirst second hsecond hdistinct
    have := h.low_le_start first hfirst
    have := h.low_le_start second hsecond
    by_cases hone : first = block
    · subst hone
      have := hplace second hsecond hdistinct.symm
      omega
    · have := hplace first hfirst hone
      by_cases htwo : second = block
      · subst htwo
        omega
      · have := hplace second hsecond htwo
        omega
  · intro cell hcell hupper
    rcases Nat.lt_or_ge cell (start block + length block) with hbelow | habove
    · rcases Nat.lt_or_ge cell (start block + length block - size) with hlower | hinside
      · -- the cell was in a block below the edited one
        have hold : cell + size - length block < start block := by omega
        obtain ⟨other, hother, hne, hin⟩ :=
          h.cover_other block (by omega) (by omega) (.inl hold)
        have := hplace other hother hne
        exact ⟨other, hother, by omega, by omega⟩
      · exact ⟨block, hblock, by omega, by omega⟩
    · obtain ⟨other, hother, hne, hin⟩ := h.cover_other block (by omega) hupper (.inr habove)
      have := hplace other hother hne
      exact ⟨other, hother, by omega, by omega⟩

/-- A block is taken out: the blocks below it move up. -/
theorem remove (hblock : block ∈ used)
    (hlengths : ∀ other ∈ used, other ≠ block → length' other = length other)
    (hmoved : ∀ other ∈ used, other ≠ block → start other < start block →
      start' other = start other + length block)
    (hkept : ∀ other ∈ used, other ≠ block → start block ≤ start other →
      start' other = start other) :
    Tiles (used \ {block}) start' length' (low + length block) high := by
  have hlow := h.low_le_start block hblock
  have hhigh := h.stop_le_high block hblock
  have hplace : ∀ other ∈ used, other ≠ block → length' other = length other ∧
      (start other + length other ≤ start block ∧ start' other = start other + length block ∨
        start block + length block ≤ start other ∧ start' other = start other) := by
    intro other hother hne
    refine ⟨hlengths other hother hne, ?_⟩
    rcases h.below_or_above hblock hother hne with hbelow | habove
    · exact .inl ⟨hbelow.1, hmoved other hother hne (by omega)⟩
    · exact .inr ⟨habove, hkept other hother hne (by omega)⟩
  constructor
  · rintro other ⟨hother, hne⟩
    have := hplace other hother hne
    have := h.low_le_start other hother
    omega
  · rintro other ⟨hother, hne⟩
    have := hplace other hother hne
    have := h.stop_le_high other hother
    omega
  · rintro other ⟨hother, hne⟩
    have := hplace other hother hne
    have := h.length_pos other hother
    omega
  · rintro first ⟨hfirst, hone⟩ second ⟨hsecond, htwo⟩ hdistinct
    have := h.apart first hfirst second hsecond hdistinct
    have := hplace first hfirst hone
    have := hplace second hsecond htwo
    omega
  · intro cell hcell hupper
    rcases Nat.lt_or_ge cell (start block + length block) with hbelow | habove
    · have hold : cell - length block < start block := by omega
      obtain ⟨other, hother, hne, hin⟩ := h.cover_other block (by omega) (by omega) (.inl hold)
      have := hplace other hother hne
      exact ⟨other, ⟨hother, hne⟩, by omega, by omega⟩
    · obtain ⟨other, hother, hne, hin⟩ := h.cover_other block (by omega) hupper (.inr habove)
      have := hplace other hother hne
      exact ⟨other, ⟨hother, hne⟩, by omega, by omega⟩

omit h

end Tiles

end Tiling
