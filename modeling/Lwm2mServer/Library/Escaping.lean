import Mathlib.Data.List.Basic

/-! Quoting with a mark. A symbol that would be taken for something else is
written with a mark before it, so that a text of any symbols is read back up to
the symbol that ends it. -/
namespace Library.Escaping
variable {α : Type} [DecidableEq α] (mark : α) (special : α → Bool)

def escape (text : List α) : List α :=
  text.flatMap fun symbol => if special symbol then [mark, symbol] else [symbol]

/-- The text up to the first closing symbol without a mark, and what comes after
it; `marked` says that a mark was read last. A mark before a symbol that needs
none stands for itself. -/
def read (close : α) : Bool → List α → Option (List α × List α)
  | _, [] => none
  | true, symbol :: rest => (read close false rest).map fun (text, left) =>
    (if special symbol then symbol :: text else mark :: symbol :: text, left)
  | false, symbol :: rest =>
    if symbol = close then some ([], rest)
    else if symbol = mark then read close true rest
    else (read close false rest).map fun (text, left) => (symbol :: text, left)

variable {mark special}

/-- An escaped text is read back, whatever follows. -/
theorem read_escape {close : α} (marked : special mark = true) (closes : special close = true)
    (apart : mark ≠ close) (text rest : List α) :
    read mark special close false (escape mark special text ++ close :: rest) = some (text, rest) := by
  induction text with
  | nil => simp [escape, read]
  | cons symbol text ih =>
    simp only [escape, List.flatMap_cons] at ih ⊢
    by_cases needs : special symbol = true
    · simp [read, needs, apart, ih]
    · have other : symbol ≠ close ∧ symbol ≠ mark := by
        constructor <;> rintro rfl <;> contradiction
      simp [read, needs, other, ih]

end Library.Escaping
