import Gbc.Callback.Chronicle
import Gbc.Currency.Conversion

/-!
# What every converter shows

In whatever order presses and answers come, the table of a converter shows the rates that it
has taken last, each times the amount in force. The amount is one or was entered by its user,
and the rates are those of a currency of the picker.
-/

namespace Gbc.Currency

open Callback World

variable {double : String → Option ℚ} {service : Service rateService}

/-- A currency code of the picker. -/
def Picked (code : String) : Prop := ∃ name, (code, name) ∈ country

/-- What has stood in the field of a converter. -/
def InField (events : List (Event (app double) service)) (index : Nat) (text : String) : Prop :=
  text = "" ∨ .input index (.editAmount text) ∈ events

/-- What the user of a converter has entered. -/
structure Entered (events : List (Event (app double) service)) (index : Nat)
    (screen : CurrencyConverterViewController) : Prop where
  currency : Picked screen.selectedCurrency
  field : InField events index screen.amountTF
  amount : screen.baseRate = 1 ∨ .input index .convertPressed ∈ events ∧
    ∃ text, InField events index text ∧ double text = some screen.baseRate

/-- The table of a converter shows these rates, which it has taken last, times the amount in
force. -/
structure Tabled (world : World (app double) service) (index : Nat)
    (screen : CurrencyConverterViewController) (past : Past (app double))
    (rates : CurrencyRates) : Prop where
  own : past.entry.self = index
  requested : past.entry.input = .viewDidLoad ∨ past.entry.input = .convertPressed
  picked : Picked past.entry.object.selectedCurrency
  last : ∃ later earlier, world.acknowledged = later ++
      (past, ⟨.latest past.entry.object.selectedCurrency, some rates⟩) :: earlier ∧
    ∀ handled ∈ later, handled.1.entry.self = index → deliveredRates handled.2 = none
  rows : screen.rows = rates.rates.map fun rate => ⟨rate.1, round (screen.baseRate * rate.2) 2⟩
  distinct : (screen.rows.map RateCell.textLabel).Nodup

section Entries

variable {events later : List (Event (app double) service)} {index : Nat}
  {screen : CurrencyConverterViewController} {past : Past (app double)}

theorem InField.keep {text : String} (stood : InField events index text)
    (longer : events ⊆ later) : InField later index text :=
  stood.imp_right fun typed => longer typed

/-- Nothing that was entered is forgotten. -/
theorem Entered.keep (entered : Entered events index screen) (longer : events ⊆ later) :
    Entered later index screen where
  currency := entered.currency
  field := entered.field.keep longer
  amount := entered.amount.imp_right fun ⟨pressed, text, stood, parsed⟩ =>
    ⟨longer pressed, text, stood.keep longer, parsed⟩

/-- A press takes the amount from the field, if a number stands there. -/
theorem Entered.pressed (entered : Entered events index screen)
    (press : .input index .convertPressed ∈ events) :
    Entered events index { screen with baseRate := pressedAmount double screen } where
  currency := entered.currency
  field := entered.field
  amount := by
    cases parsed : double screen.amountTF with
    | none =>
        have same : pressedAmount double screen = screen.baseRate := by simp [pressedAmount, parsed]
        rw [same]
        exact entered.amount
    | some amount =>
        refine .inr ⟨press, screen.amountTF, entered.field, ?_⟩
        simp [pressedAmount, parsed]

/-- The events tell what the user of a converter has entered. It requests the rates of the
currency that was selected then. -/
def entering (double : String → Option ℚ) (service : Service rateService) :
    Chronicle (app double) service where
  Object events index screen := Entered events index screen
  Request _ past request := Requested past request ∧ Picked past.entry.object.selectedCurrency

theorem entering_loaded (entered : Entered events index screen)
    (answer : Option CurrencyRates) :
    (entering double service).Tells events index past (loaded answer) screen := by
  cases answer with
  | none => trivial
  | some rates =>
      have shown : ∀ results currencyDict rows, Entered events index
          { screen with results := results, currencyDict := currencyDict, rows := rows } :=
        fun _ _ _ => ⟨entered.currency, entered.field, entered.amount⟩
      exact ⟨shown _ _ _, shown _ _ _, trivial⟩

theorem entering_sound : (entering double service).Sound where
  object longer entered := Entered.keep entered longer
  request _ requested := requested
  root _ _ _ := ⟨⟨"Canadian Dollar", List.mem_cons_self⟩, .inl rfl, .inl rfl⟩
  input := by
    rintro events ⟨⟨serial, index, input, screen⟩, trail⟩ entered given start
    replace entered : Entered events index screen := entered
    cases input with
    | viewDidLoad =>
        exact ⟨⟨⟨start, .inl rfl, rfl⟩, entered.currency⟩,
          fun _ answer _ _ entered => entering_loaded entered answer, trivial⟩
    | didSelectRow row =>
        refine Chronicle.tells_unwrap fun found listed => ?_
        have picked : Picked found.1 := ⟨found.2, List.mem_of_getElem? listed⟩
        exact ⟨⟨picked, entered.field, entered.amount⟩, trivial⟩
    | editAmount text => exact ⟨⟨entered.currency, .inr given, entered.amount⟩, trivial⟩
    | convertPressed =>
        have pressed := entered.pressed given
        exact ⟨⟨⟨start, .inr rfl, rfl⟩, entered.currency⟩,
          fun _ answer _ _ entered => entering_loaded entered answer, pressed,
          ⟨pressed.currency, pressed.field, pressed.amount⟩, trivial⟩
    | cellForRowAt row =>
        exact ⟨⟨entered.currency, entered.field, entered.amount⟩, trivial⟩

end Entries

section Tables

variable {events : List (Event (app double) service)} {world : World (app double) service}
  {index process : Nat} {screen : CurrencyConverterViewController}

/-- A converter shows nothing until it takes rates, and then those that it has taken last. -/
theorem shows_last_rates (slotted : Slotted (shownRates double) world)
    (holds : (entering double service).Holds events world)
    (placed : world.objects[index]? = some ⟨process, screen⟩)
    (runs : world.crashed process = false) :
    (screen.rows = [] ∧ ∀ handled ∈ world.acknowledged, handled.1.entry.self = index →
      deliveredRates handled.2 = none) ∨ ∃ past rates, Tabled world index screen past rates := by
  obtain ⟨results, rows⟩ := slotted.value index _ placed trivial runs
  cases last : world.lastWrite (shownRates double) index with
  | none =>
      rw [last] at results
      refine .inl ⟨rows.trans (table_of_none results), fun handled member own => ?_⟩
      have silent := List.findSome?_eq_none_iff.mp last handled member
      rw [if_pos own] at silent
      exact Option.map_eq_none_iff.mp silent
  | some value =>
      rw [last] at results
      obtain ⟨later, ⟨past, request, answer⟩, earlier, listed, writes, skipped⟩ :=
        List.findSome?_eq_some_iff.mp last
      obtain ⟨own, writes⟩ := Option.ite_none_right_eq_some.mp writes
      obtain ⟨rates, found, rfl⟩ := Option.map_eq_some_iff.mp writes
      obtain rfl : answer = some rates := found
      have member : (past, ⟨request, some rates⟩) ∈ world.acknowledged := listed ▸ by simp
      have admitted : Requested past request ∧ Picked past.entry.object.selectedCurrency :=
        holds.acknowledged _ member
      obtain ⟨⟨_, requested, rfl⟩, picked⟩ := admitted
      have table := rows.trans (table_of_results results)
      have labels : screen.rows.map RateCell.textLabel = rates.rates.map Prod.fst := by
        rw [table, List.map_map]
        rfl
      refine .inr ⟨past, rates, own, requested, picked, ⟨later, earlier, listed, ?_⟩, table,
        labels ▸ rates.distinct⟩
      intro handled before same
      have silent := skipped handled before
      rw [if_pos same] at silent
      exact Option.map_eq_none_iff.mp silent

/-- In every run, the table of each running converter shows the rates that it has taken last,
which are those of a currency of the picker, each times the amount in force, and the amount is
one or was read off the field on a press. -/
theorem tables_convert_taken_rates {server : service.State}
    (reached : (machine (app double) service).recording.Reaches
      (machine (app double) service).recording.anyStep (.initial _ server, []) (world, events))
    (placed : world.objects[index]? = some ⟨process, screen⟩)
    (runs : world.crashed process = false) :
    Entered events index screen ∧
      ((screen.rows = [] ∧ ∀ handled ∈ world.acknowledged, handled.1.entry.self = index →
        deliveredRates handled.2 = none) ∨
      ∃ past rates, Tabled world index screen past rates) := by
  have holds : (entering double service).Holds events world :=
    Chronicle.holds_of_recorded entering_sound reached
  have plain := Machine.Reachable.unrecorded (m := machine (app double) service) reached
  exact ⟨holds.objects index _ placed,
    shows_last_rates (slotted_of_reachable shownRates_sound plain) holds placed runs⟩

/-- A press doubles the amount before the rates of its request have arrived. -/
theorem tables_convert_taken_rates_doubled :
    ∃ (world : World (app digits) exchangeRates)
      (events : List (Event (app digits) exchangeRates)) (screen : CurrencyConverterViewController),
      screen.rows = [⟨"USD", 3 / 2⟩] ∧ Entered events 0 screen ∧
        ((screen.rows = [] ∧ ∀ handled ∈ world.acknowledged, handled.1.entry.self = 0 →
          deliveredRates handled.2 = none) ∨
        ∃ past rates, Tabled world 0 screen past rates) := by
  obtain ⟨⟨world, events⟩, reached, checked⟩ := Machine.exists_reaches
    (m := (machine (app digits) exchangeRates).recording)
    (machine (app digits) exchangeRates).recording.anyStep (.initial _ (), [])
    (opening ++ [.input 0 (.editAmount "2"), .input 0 .convertPressed])
    (fun state => (state.1.objects[0]?).any fun target =>
      !state.1.crashed target.process && target.object.rows == [⟨"USD", 3 / 2⟩])
    (by decide +kernel)
  obtain ⟨⟨process, screen⟩, placed, shown⟩ := (Option.any_eq_true _ _).mp checked
  simp only [Bool.and_eq_true, Bool.not_eq_true', beq_iff_eq] at shown
  exact ⟨world, events, screen, shown.2, tables_convert_taken_rates reached placed shown.1⟩

end Tables

end Gbc.Currency
