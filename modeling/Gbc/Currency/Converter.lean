import Mathlib.Data.Rat.Floor
import Gbc.Callback.Code
import Gbc.Platform.Foundation

/-!
# The currency converter

`CurrencyConverterViewController`: a picker for the base currency, a field for the amount,
a button, and a table of converted amounts. The rates of a base currency are requested
over the network; the answers carry no tag. Amounts and rates are exact.
-/

namespace Gbc

open Callback

/-- `CurrencyRates`: a dictionary, listed in the order in which its keys and its values
are enumerated. -/
structure CurrencyRates where
  rates : List (String × ℚ)
  distinct : (rates.map Prod.fst).Nodup

/-- `rounded()`: to the nearest integer, and away from zero in the middle. -/
def rounded (value : ℚ) : ℤ :=
  if 0 ≤ value then ⌊value + 1 / 2⌋ else ⌈value - 1 / 2⌉

/-- `round(to:)`. -/
def round (value : ℚ) (places : Nat) : ℚ :=
  rounded (value * 10 ^ places) / 10 ^ places

/-- A cell of the result table. -/
structure RateCell where
  textLabel : String
  detailTextLabel : ℚ
  deriving DecidableEq

/-- `CurrencyConverterViewController`. `rows` is what the result table shows. -/
structure CurrencyConverterViewController where
  results : Option CurrencyRates
  currencyDict : List (String × ℚ)
  baseRate : ℚ
  selectedCurrency : String
  amountTF : String
  rows : List RateCell

namespace Currency

/-- `https://api.exchangeratesapi.io/latest?base=` with a currency code, which is a URL. -/
inductive Request where
  | latest (base : String)
  deriving DecidableEq

/-- The rate service as the program sees it: a missing answer stands for an error and for
data that is not decoded. -/
abbrev rateService : Interface where
  Request := Request
  Response _ := Option CurrencyRates

/-- What happens to the converter. `cellForRowAt` is a row that scrolls in. -/
inductive Input where
  | viewDidLoad
  | didSelectRow (row : Nat)
  | editAmount (text : String)
  | convertPressed
  | cellForRowAt (row : Nat)
  deriving DecidableEq

/-- The body of a handler of the converter. -/
abbrev Handler := Code rateService CurrencyConverterViewController Fault

/-- The currencies of the picker. -/
def country : List (String × String) :=
  [("CAD", "Canadian Dollar"),
   ("USD", "US Dollar"),
   ("AUD", "Australian Dollar"),
   ("EUR", "Euro"),
   ("BRL", "Brazilian Real"),
   ("CNY", "Yuan Renminbi"),
   ("NZD", "New Zealand Dollar"),
   ("CUP", "Cuban Peso"),
   ("EGP", "Egyptian Pound"),
   ("GBP", "Pound Sterling"),
   ("HKD", "Hong Kong Dollar"),
   ("INR", "Indian Rupee"),
   ("CHF", "Swiss Franc"),
   ("JPY", "Yen"),
   ("IDR", "Indonesian Rupiah")]

/-- The converter as it opens. -/
def opened : CurrencyConverterViewController where
  results := none
  currencyDict := []
  baseRate := 1
  selectedCurrency := "CAD"
  amountTF := ""
  rows := []

section Table

variable (self : CurrencyConverterViewController)

def numberOfRowsInSection : Nat :=
  match self.results with
  | some data => data.rates.length
  | none => 0

/-- `tableView(_:cellForRowAt:)`, for a row that the table has. -/
def cellForRowAt (row : Nat) : Option RateCell :=
  (self.results.bind fun data => data.rates[row]?).map fun rate =>
    ⟨rate.1, round (self.baseRate * rate.2) 2⟩

/-- The cells of all rows. -/
def table : List RateCell :=
  (List.range (numberOfRowsInSection self)).filterMap (cellForRowAt self)

end Table

/-- `resultTableV.reloadData()`, which asks for the cells again. -/
def reloadData (next : Handler) : Handler :=
  .modify (fun self => { self with rows := table self }) next

/-- The block that runs on the main queue when the rates have been decoded. -/
def loaded (decodedResponse : Option CurrencyRates) : Handler :=
  match decodedResponse with
  | none => .done
  | some decodedResponse =>
      .modify (fun self =>
        { self with results := some decodedResponse, currencyDict := decodedResponse.rates }) <|
      reloadData .done

def loadData (next : Handler) : Handler :=
  .look fun self => .call (.latest self.selectedCurrency) loaded next

/-- `pickerView(_:didSelectRow:inComponent:)`. -/
def didSelectRow (row : Nat) : Handler :=
  .unwrap country[row]? .index fun found =>
  .modify (fun self => { self with selectedCurrency := found.1 }) .done

section Amounts

variable (double : String → Option ℚ)

/-- The amount after a press of the button. `double` is the initializer of `Double`. -/
def pressedAmount (self : CurrencyConverterViewController) : ℚ :=
  (double self.amountTF).getD self.baseRate

def convertPressed : Handler :=
  loadData <|
  .modify (fun self => { self with baseRate := pressedAmount double self }) <|
  reloadData .done

def handle : Input → Handler
  | .viewDidLoad => loadData .done
  | .didSelectRow row => didSelectRow row
  | .editAmount text => .modify (fun self => { self with amountTF := text }) .done
  | .convertPressed => convertPressed double
  | .cellForRowAt row =>
      .modify (fun self =>
        { self with rows := (cellForRowAt self row).elim self.rows (self.rows.set row) }) .done

/-- The converter as a program. -/
abbrev app : App rateService where
  Object := CurrencyConverterViewController
  Root := Unit
  Input := Input
  Fault := Fault
  root _ := opened
  handler input := handle double input

end Amounts

end Currency

end Gbc
