import DraftLint.Text.Basic

/-!
# Failures

Why a computation has no result.
-/

namespace DraftLint

inductive Failure where
  /-- Digits were expected that write a number of bearable size. -/
  | notANumber
  /-- A part of a date does not fit into 32 bits. -/
  | partTooLarge
  /-- A remote service gave something else than a text. -/
  | notAText
  /-- A remote service gave something that has no items. -/
  | notAList
  /-- No mode goes by this name. -/
  | noSuchMode (name : Text)
  /-- A finding was to be graded for something that is no mode. -/
  | unexpectedMode (name : Option Text)
  /-- A mode was asked for without a name. -/
  | unnamedMode
  /-- A year was asked for without a number. -/
  | unnamedYear
  /-- Text cannot be laid out in a width below one. -/
  | noWidth
deriving DecidableEq, Repr

end DraftLint
