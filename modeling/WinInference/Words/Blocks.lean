import Mathlib.Data.List.Infix

/-!
# Blocks of lines

A stream of symbols in which one symbol ends a line and an empty line ends a
block of lines.  A reader takes one symbol after the other, so it does not
matter in what pieces the stream arrives.  Blocks that are written one after the
other are read as they were written, and of a stream that is cut off the blocks
before the cut are read.

`feedAll_append` is the indifference to pieces, `readBlocks_writeBlocks` the
round trip, and `readBlocks_prefix` and `readBlocks_cut` what is read of a
stream that ends too early.
-/

namespace Words

variable {α : Type} {newline : α}

/-! ## Writing -/

/-- Lines that a block may consist of. -/
structure IsBlock (newline : α) (block : List (List α)) : Prop where
  nonempty : block ≠ []
  lines : ∀ line ∈ block, line ≠ [] ∧ newline ∉ line

/-- The lines, each with its end. -/
def writeLines (newline : α) (block : List (List α)) : List α :=
  block.flatMap (· ++ [newline])

/-- The lines of a block, and an empty one. -/
def writeBlock (newline : α) (block : List (List α)) : List α :=
  writeLines newline block ++ [newline]

/-- The blocks, one after the other. -/
def writeBlocks (newline : α) (blocks : List (List (List α))) : List α :=
  blocks.flatMap (writeBlock newline)

/-! ## Reading -/

/-- The line and the block that have begun, and the blocks that are complete. -/
structure BlockReader (α : Type) where
  line : List α := []
  block : List (List α) := []
  blocks : List (List (List α)) := []

namespace BlockReader

variable [DecidableEq α]

/-- The next symbol.  An empty line that ends no block is skipped. -/
def feed (newline : α) (r : BlockReader α) (a : α) : BlockReader α :=
  if a ≠ newline then { r with line := r.line ++ [a] }
  else if r.line ≠ [] then { r with line := [], block := r.block ++ [r.line] }
  else if r.block ≠ [] then { r with block := [], blocks := r.blocks ++ [r.block] }
  else r

/-- The symbols, one after the other. -/
def feedAll (newline : α) (r : BlockReader α) (symbols : List α) : BlockReader α :=
  symbols.foldl (feed newline) r

variable {r : BlockReader α}

theorem feedAll_append (left right : List α) :
    r.feedAll newline (left ++ right) = (r.feedAll newline left).feedAll newline right :=
  List.foldl_append

/-- Symbols that end no line. -/
theorem feedAll_open {symbols : List α} (h : newline ∉ symbols) :
    r.feedAll newline symbols = { r with line := r.line ++ symbols } := by
  induction symbols generalizing r with
  | nil => simp [feedAll]
  | cons a rest ih =>
      have ha : a ≠ newline := fun heq => h (heq ▸ List.mem_cons_self)
      have hrest : newline ∉ rest := fun hmem => h (List.mem_cons_of_mem a hmem)
      show (r.feed newline a).feedAll newline rest = _
      rw [ih hrest, feed, if_pos ha]
      simp

/-- A line, from the end of another one. -/
theorem feedAll_line {line : List α} (hempty : r.line = []) (hline : line ≠ [])
    (h : newline ∉ line) :
    r.feedAll newline (line ++ [newline]) = { r with block := r.block ++ [line] } := by
  rw [feedAll_append, feedAll_open h]
  simp [feedAll, feed, hempty, hline]

theorem feedAll_lines {block : List (List α)} (hempty : r.line = [])
    (h : ∀ line ∈ block, line ≠ [] ∧ newline ∉ line) :
    r.feedAll newline (writeLines newline block) = { r with block := r.block ++ block } := by
  induction block generalizing r with
  | nil => simp [writeLines, feedAll]
  | cons line rest ih =>
      obtain ⟨hline, hnewline⟩ := h line List.mem_cons_self
      rw [writeLines, List.flatMap_cons, feedAll_append, feedAll_line hempty hline hnewline]
      refine (ih (r := { r with block := r.block ++ [line] }) hempty
        fun l hl => h l (List.mem_cons_of_mem line hl)).trans ?_
      simp

/-- A block, from the end of another one. -/
theorem feedAll_block {block : List (List α)} (hline : r.line = []) (hblock : r.block = [])
    (h : IsBlock newline block) :
    r.feedAll newline (writeBlock newline block) = { r with blocks := r.blocks ++ [block] } := by
  rw [writeBlock, feedAll_append, feedAll_lines hline h.lines]
  simp [feedAll, feed, hline, hblock, h.nonempty]

theorem feedAll_blocks {blocks : List (List (List α))} (hline : r.line = [])
    (hblock : r.block = []) (h : ∀ block ∈ blocks, IsBlock newline block) :
    r.feedAll newline (writeBlocks newline blocks) =
      { r with blocks := r.blocks ++ blocks } := by
  induction blocks generalizing r with
  | nil => simp [writeBlocks, feedAll]
  | cons block rest ih =>
      rw [writeBlocks, List.flatMap_cons, feedAll_append,
        feedAll_block hline hblock (h block List.mem_cons_self)]
      refine (ih (r := { r with blocks := r.blocks ++ [block] }) hline hblock
        fun b hb => h b (List.mem_cons_of_mem block hb)).trans ?_
      simp

/-- What has been read stays. -/
theorem blocks_prefix_feed (a : α) : r.blocks <+: (r.feed newline a).blocks := by
  unfold feed
  split
  · exact List.prefix_rfl
  · split
    · exact List.prefix_rfl
    · split
      · exact List.prefix_append _ _
      · exact List.prefix_rfl

theorem blocks_prefix_feedAll (symbols : List α) :
    r.blocks <+: (r.feedAll newline symbols).blocks := by
  induction symbols generalizing r with
  | nil => exact List.prefix_rfl
  | cons a rest ih => exact (blocks_prefix_feed a).trans ih

end BlockReader

variable [DecidableEq α]

/-- The blocks that a stream, or what has arrived of one, contains. -/
def readBlocks (newline : α) (symbols : List α) : List (List (List α)) :=
  (({} : BlockReader α).feedAll newline symbols).blocks

/-- Blocks are read as they were written. -/
theorem readBlocks_writeBlocks {blocks : List (List (List α))}
    (h : ∀ block ∈ blocks, IsBlock newline block) :
    readBlocks newline (writeBlocks newline blocks) = blocks := by
  rw [readBlocks, BlockReader.feedAll_blocks rfl rfl h]
  rfl

/-- A longer stream contains the blocks of a shorter one. -/
theorem readBlocks_prefix {symbols symbols' : List α} (h : symbols <+: symbols') :
    readBlocks newline symbols <+: readBlocks newline symbols' := by
  obtain ⟨rest, rfl⟩ := h
  rw [readBlocks, readBlocks, BlockReader.feedAll_append]
  exact BlockReader.blocks_prefix_feedAll rest

/-- Of blocks that were cut off the first ones are read. -/
theorem readBlocks_cut {blocks : List (List (List α))} {arrived : List α}
    (h : ∀ block ∈ blocks, IsBlock newline block)
    (harrived : arrived <+: writeBlocks newline blocks) :
    readBlocks newline arrived <+: blocks := by
  have hread : readBlocks newline arrived <+: readBlocks newline (writeBlocks newline blocks) :=
    readBlocks_prefix harrived
  rwa [readBlocks_writeBlocks h] at hread

end Words
