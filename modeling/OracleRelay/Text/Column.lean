/-
# Columns

A text in a column is filled up with spaces; one that is too long stays as it is.

Key definitions: `Column.padded`.
-/

namespace OracleRelay
namespace Column

/-- A text filled up with spaces to a width, counted in characters. -/
def padded (width : Nat) (s : String) : String := s ++ String.ofList (List.replicate (width - s.length) ' ')

end Column
end OracleRelay
