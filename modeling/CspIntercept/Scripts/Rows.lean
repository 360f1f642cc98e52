import CspIntercept.Scripts.CspVerify

namespace csp_intercept.csv

/-- A row of `csv.DictReader`, the columns by name; a short row has `None` in the last ones. -/
abbrev Row := List (String × Option (List Char))

/-- `row[name]`; none where there is no such column. -/
def Row.column (row : Row) (name : String) : Option (Option (List Char)) := row.lookup name

/-- `row.get(name)`. -/
def Row.get (row : Row) (name : String) : Option (List Char) := (row.column name).join

/-- `str(value)`. -/
def str : Option (List Char) → List Char
  | none => "None".toList
  | some value => value

/-- `str.lower`, as far as it is compared with ASCII text: besides the capitals, the only
    letters with an ASCII one in lower case are the Kelvin sign and the dotted capital I. -/
def lower (s : List Char) : List Char :=
  s.flatMap fun c =>
    if 'A' ≤ c ∧ c ≤ 'Z' then [Char.ofNat (c.toNat + 32)]
    else if c.toNat = 0x212A then ['k']
    else if c.toNat = 0x130 then ['i', Char.ofNat 0x307]
    else [c]

end csp_intercept.csv
