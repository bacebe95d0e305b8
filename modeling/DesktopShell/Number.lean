import DesktopShell.Text

/-!
# Numbers as texts

How a binary number is written: the decimal with the fewest digits that still reads
back to it, by exact arithmetic on natural numbers, in positional or in exponent form.
A finite number is taken as `m * 2 ^ q`; the reals that round to it lie between the
midpoints to its neighbours, the midpoints included exactly when `m` is even. And what
reads as a number: decimal literals with an optional sign, point and exponent
(`Literal.read?`), and the wider rule for the arguments of scripts (`ofText?`), which
also knows blank text and the bases 16, 8 and 2.
-/
namespace DesktopShell.Number

/-- A finite magnitude `m * 2 ^ q`. -/
structure Binary where
  m : Nat
  q : Int
  /-- The number below is half as far away as the number above. -/
  narrowBelow : Bool
deriving Repr, DecidableEq

/-- A decimal `digits * 10 ^ exponent`. -/
structure Decimal where
  digits : Nat
  exponent : Int
deriving Repr, DecidableEq

def Binary.ofBits (bits : UInt64) : Binary :=
  let e := (bits >>> 52).toNat % 2048
  let f := bits.toNat % Nat.pow 2 52
  if e = 0 then ⟨f, -1074, false⟩
  else ⟨Nat.pow 2 52 + f, (e : Int) - 1075, f == 0 && decide (1 < e)⟩

/-- How `a * 10 ^ i` compares with `n * 2 ^ j`. -/
def compareScaled (a : Nat) (i : Int) (n : Nat) (j : Int) : Ordering :=
  compare (a * Nat.pow 10 i.toNat * Nat.pow 2 (-j).toNat)
    (n * Nat.pow 2 j.toNat * Nat.pow 10 (-i).toNat)

/-- The decimal lies among the reals that round to the binary number. -/
def Binary.readsBack (x : Binary) (d : Decimal) : Bool :=
  let low := if x.narrowBelow then 4 * x.m - 1 else 4 * x.m - 2
  let high := 4 * x.m + 2
  let even := x.m % 2 == 0
  let atLow := compareScaled d.digits d.exponent low (x.q - 2)
  let atHigh := compareScaled d.digits d.exponent high (x.q - 2)
  (atLow == .gt || (even && atLow == .eq)) && (atHigh == .lt || (even && atHigh == .eq))

/-- The number of decimal places of a magnitude before the point: the least `k`
    with `m * 2 ^ q < 10 ^ k`, found upward from an estimate that is never too large. -/
def Binary.scale (x : Binary) : Int :=
  let estimate : Int := ((x.m.log2 : Int) + x.q) * 30103 / 100000
  let below (step : Nat) : Bool := compareScaled 1 (estimate + step) x.m x.q == .gt
  estimate + (((List.range 4).find? below).getD 4 : Nat)

/-- The largest decimal on the grid of multiples of `10 ^ g` that does not exceed the number. -/
def Binary.floorAt (x : Binary) (g : Int) : Nat :=
  x.m * Nat.pow 2 x.q.toNat * Nat.pow 10 (-g).toNat
    / (Nat.pow 2 (-x.q).toNat * Nat.pow 10 g.toNat)

/-- The grid point that reads back, of two the nearer one and of two equally near the larger. -/
def Binary.onGrid? (x : Binary) (g : Int) : Option Decimal :=
  let under := x.floorAt g
  let lower : Decimal := ⟨under, g⟩
  let upper : Decimal := ⟨under + 1, g⟩
  match x.readsBack lower, x.readsBack upper with
  | true, true =>
    some (if compareScaled (2 * under + 1) g (2 * x.m) x.q == .gt then lower else upper)
  | true, false => some lower
  | false, true => some upper
  | false, false => none

/-- The first grid with a point that reads back, from `fuel` grids that grow finer. -/
def Binary.search (x : Binary) : Nat → Int → Option Decimal
  | 0, _ => none
  | fuel + 1, g => match x.onGrid? g with
    | some d => some d
    | none => x.search fuel (g - 1)

/-- The exact value, which stands in where no short decimal reads back. -/
def Binary.exact (x : Binary) : Decimal :=
  ⟨x.m * Nat.pow 2 x.q.toNat * Nat.pow 5 (-x.q).toNat, if x.q < 0 then x.q else 0⟩

/-- A decimal without zeros at its end, from at most `fuel` of them. -/
def Decimal.strip : Nat → Decimal → Decimal
  | 0, d => d
  | fuel + 1, d =>
    if d.digits % 10 = 0 ∧ d.digits ≠ 0 then strip fuel ⟨d.digits / 10, d.exponent + 1⟩ else d

/-- The shortest decimal that reads back to a magnitude; zero is itself. -/
def Binary.shortest (x : Binary) : Decimal :=
  if x.m = 0 then ⟨0, 0⟩
  else Decimal.strip 20 ((x.search 17 (x.scale - 1)).getD x.exact)

/-- Digits with the point put in its place, and zeros filled in. -/
def positional (d : Decimal) : List Char :=
  let digits := decimal d.digits
  let places := (-d.exponent).toNat
  if 0 ≤ d.exponent then digits ++ List.replicate d.exponent.toNat '0'
  else if places < digits.length then
    digits.take (digits.length - places) ++ '.' :: digits.drop (digits.length - places)
  else '0' :: '.' :: List.replicate (places - digits.length) '0' ++ digits

/-- One digit, the others after a point, and the power of ten with its sign. -/
def exponential (d : Decimal) : List Char :=
  let digits := decimal d.digits
  let power : Int := d.exponent + digits.length - 1
  let tail := digits.drop 1
  digits.take 1 ++ (if tail.isEmpty then [] else '.' :: tail)
    ++ 'e' :: (if power < 0 then '-' else '+') :: decimal power.natAbs

/-- The decisions of a number format. -/
structure Layout where
  /-- The magnitudes written in positional form. -/
  isPositional : Float → Bool
  /-- Negative zero keeps its sign. -/
  signsZero : Bool

def Layout.write (layout : Layout) (x : Float) : String :=
  if x.isNaN then "NaN"
  else
    let magnitude := x.abs
    let negative := decide (Nat.pow 2 63 ≤ x.toBits.toNat)
    let body :=
      if x.isInf then "inf".toList
      else
        let d := (Binary.ofBits magnitude.toBits).shortest
        if magnitude == 0 || layout.isPositional magnitude then positional d else exponential d
    String.ofList (if negative && (layout.signsZero || magnitude != 0) then '-' :: body else body)

/-- Numbers are printed positionally from a millionth up to below 10^21, and zero has no sign. -/
def printed : Layout :=
  { isPositional := fun magnitude => 1e-6 ≤ magnitude && magnitude < 1e21, signsZero := false }

/-- Sizes in messages are always positional. -/
def plain : Layout :=
  { isPositional := fun _ => true, signsZero := true }

/-- The text that a printed number has. -/
def text (x : Float) : String := printed.write x

/-- A decimal literal, `mantissa * 10 ^ exponent` with a sign. -/
structure Literal where
  negative : Bool
  mantissa : Nat
  exponent : Int
deriving Repr, DecidableEq

/-- The double nearest to `mantissa * 10 ^ exponent`. -/
def nearest (mantissa : Nat) (exponent : Int) : Float :=
  Float.ofScientific mantissa (decide (exponent < 0)) exponent.natAbs

def Literal.value (l : Literal) : Float :=
  let magnitude := nearest l.mantissa l.exponent
  if l.negative then -magnitude else magnitude

/-- The sign at the start of a text, true for a minus, and what follows it. -/
def splitSign : List Char → Bool × List Char
  | '-' :: rest => (true, rest)
  | '+' :: rest => (false, rest)
  | cs => (false, cs)

/-- The power of ten that an exponent part gives; no part at all gives none. -/
def readExponent? : List Char → Option Int
  | [] => some 0
  | c :: rest =>
    if c = 'e' ∨ c = 'E' then
      let (negative, digits) := splitSign rest
      if digits.all isDigit then
        (ofDigits? 10 digits).map fun n => if negative then -(n : Int) else (n : Int)
      else none
    else none

/-- The number that a row of digits stands for, no digits standing for zero. -/
def digitsValue (digits : List Char) : Nat := (ofDigits? 10 digits).getD 0

/-- A literal without its sign: digits, a point with digits on at least one side, an exponent. -/
def readMagnitude? (negative : Bool) (cs : List Char) : Option Literal :=
  let whole := cs.takeWhile isDigit
  let afterWhole := cs.dropWhile isDigit
  let hasPoint := afterWhole.head? = some '.'
  let fractional := if hasPoint then afterWhole.drop 1 else []
  let fraction := fractional.takeWhile isDigit
  let tail := if hasPoint then fractional.dropWhile isDigit else afterWhole
  if whole.isEmpty && fraction.isEmpty then none
  else
    (readExponent? tail).map fun power =>
      ⟨negative, digitsValue (whole ++ fraction), power - fraction.length⟩

def Literal.read? (cs : List Char) : Option Literal :=
  let (negative, rest) := splitSign cs
  readMagnitude? negative rest

/-- The base that the second character of a literal such as `0x1F` names. -/
def baseOf? (c : Char) : Option Nat :=
  if c = 'x' ∨ c = 'X' then some 16
  else if c = 'o' ∨ c = 'O' then some 8
  else if c = 'b' ∨ c = 'B' then some 2
  else none

/-- The base of a literal that names one, and the digits after the name. -/
def splitBase? : List Char → Option (Nat × List Char)
  | '0' :: c :: digits => (baseOf? c).map fun base => (base, digits)
  | _ => none

/-- The value of digits in a base, as long as it fits in 64 bits. -/
def word? (base : Nat) (digits : List Char) : Option Nat :=
  match ofDigits? base digits with
  | some n => if n < Nat.pow 2 64 then some n else none
  | none => none

/-- The number that a text stands for in a script: blank text is zero, a literal in
    base 16, 8 or 2 has no sign and fits in 64 bits, and any other is decimal and finite. -/
def ofChars? (cs : List Char) : Option Float :=
  match Text.trimmed cs with
  | [] => some 0
  | trimmed =>
    match splitBase? trimmed with
    | some (base, digits) => (word? base digits).map fun n => nearest n 0
    | none =>
      match Literal.read? trimmed with
      | some literal => if literal.value.isFinite then some literal.value else none
      | none => none

def ofText? (s : String) : Option Float := ofChars? s.toList

end DesktopShell.Number
