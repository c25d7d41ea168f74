import TableRules.Files.Entry

/-!
# Surroundings

What a run needs of the outside: to look at paths, to make folders, to write texts, and the time.
`Surroundings` gives these in any monad, so that a run is one definition over real files and over
folders that are kept in memory.
-/

namespace TableRules

/-- Access to files and to the time. -/
structure Surroundings (m : Type → Type) where
  /-- What is found at a path. -/
  entry : Path → m Entry
  /-- Makes a folder and those above it, unless they are there; answers with what is in the way. -/
  makeFolder : Path → m (Option Obstacle)
  /-- Writes a text to a file in a folder that is there; answers with what is in the way. -/
  write : Path → String → m (Option Obstacle)
  /-- The present instant. -/
  now : m Int

end TableRules
