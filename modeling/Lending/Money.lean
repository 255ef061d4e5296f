import Lending.Failure

/-!
# Money

Amounts in minor units (cents), currency codes and payment methods. Each type holds valid values
only; `make` is the way in and refuses the others.

* `Amount.major`: an amount in major units, with two decimal places.
* `checkedTotal`: the sum of amounts, unless it needs more than 64 bits.
-/

namespace Lending

/-- A positive amount in minor units. -/
structure Amount where
  value : UInt64
  pos : 0 < value
  deriving DecidableEq

namespace Amount

/-- The amount of `value` minor units, refused if that is zero. -/
def make (value : UInt64) : Except Failure Amount :=
  if h : 0 < value then .ok ⟨value, h⟩ else .error (.invalid .amountNotPositive)

/-- The amount in minor units, as a number without end. -/
def toNat (a : Amount) : Nat := a.value.toNat

theorem toNat_pos (a : Amount) : 0 < a.toNat := UInt64.lt_iff_toNat_lt.mp a.pos

theorem toNat_lt (a : Amount) : a.toNat < UInt64.size := a.value.toNat_lt_size

/-- The amount of `n` minor units. -/
def ofNat (n : Nat) (pos : 0 < n) (lt : n < UInt64.size) : Amount where
  value := UInt64.ofNatLT n lt
  pos := by simpa [UInt64.lt_iff_toNat_lt] using pos

@[simp]
theorem toNat_ofNat (n : Nat) (pos : 0 < n) (lt : n < UInt64.size) :
    (ofNat n pos lt).toNat = n := by
  simp [ofNat, toNat]

/-- The amount in minor units, in decimal. -/
def text (a : Amount) : String := Text.numeral a.toNat

end Amount

/-- Minor units as a number of major units: a point stands before the last two digits. -/
def majorChars (minor : Nat) : List Char :=
  Text.decimal (minor / 100) ++ '.' :: Text.padded 2 (minor % 100)

/-- The amount in major units, as in `12.50`. -/
def Amount.major (a : Amount) : String := String.ofList (majorChars a.toNat)

/-- The sum, as long as every partial sum fits 64 bits. -/
def checkedTotal (values : List UInt64) : Except Failure UInt64 :=
  values.foldlM (fun total value =>
    if total.toNat + value.toNat < UInt64.size then .ok (total + value)
    else .error (.invalid .amountOverflow)) 0

/-- Three capital letters. -/
def isCurrencyCode (code : String) : Bool :=
  code.toList.length = 3 && code.toList.all Char.isUpper

/-- A currency by its code. -/
structure Currency where
  code : String
  valid : isCurrencyCode code = true
  deriving DecidableEq

/-- The currency of a code, refused if the code is malformed. -/
def Currency.make (code : String) : Except Failure Currency :=
  if h : isCurrencyCode code = true then .ok ⟨code, h⟩
  else .error (.invalid (.currencyCode code))

/-- Whether a character may stand in the name of a payment method. -/
def isMethodChar (c : Char) : Bool := c.isLower || c.isDigit || c = '_'

/-- At least one small letter, digit or underscore, and nothing else. -/
def isMethodName (name : String) : Bool :=
  !name.toList.isEmpty && name.toList.all isMethodChar

/-- How a payment is funded. -/
structure PaymentMethod where
  name : String
  valid : isMethodName name = true
  deriving DecidableEq

/-- The payment method of a name, refused if the name is malformed. -/
def PaymentMethod.make (name : String) : Except Failure PaymentMethod :=
  if h : isMethodName name = true then .ok ⟨name, h⟩
  else .error (.invalid (.paymentMethod name))

end Lending
