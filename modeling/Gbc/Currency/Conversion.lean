import Gbc.Callback.Contract
import Gbc.Callback.Effects
import Gbc.Callback.Newest
import Gbc.Currency.Converter

/-!
# One conversion at a time

The table of the converter shows the rates that arrived last, times the amount of the last
press. Both belong to one request as long as the amount changes only before the table is
filled, and rates fill it only while the amount of their request is in force.
-/

namespace Gbc.Currency

open Callback World

variable {double : String → Option ℚ} {service : Service rateService}

/-- The amount in force once the handler of an entry has run. -/
def amount (entry : Entry (app double)) : ℚ :=
  match entry.input with
  | .convertPressed => pressedAmount double entry.object
  | _ => entry.object.baseRate

/-- The rates that an answered request has delivered. -/
def deliveredRates (exchange : Exchange rateService) : Option CurrencyRates := exchange.response

/-- All requests of one converter. -/
def requestsOf (past : Past (app double)) : Option Nat := some past.entry.self

/-- The table of a converter shows the conversion of this request. -/
structure Converts (world : World (app double) service) (index : Nat)
    (screen : CurrencyConverterViewController) (past : Past (app double))
    (rates : CurrencyRates) : Prop where
  own : past.entry.self = index
  requested : past.entry.input = .viewDidLoad ∨ past.entry.input = .convertPressed
  answered : (past, ⟨.latest past.entry.object.selectedCurrency, some rates⟩) ∈ world.acknowledged
  rows : ∀ row ∈ screen.rows, ∃ rate, (row.textLabel, rate) ∈ rates.rates ∧
    row.detailTextLabel = round (amount past.entry * rate) 2

/-- Every table that is not empty shows the conversion of one request, which is the newest
one when that has succeeded and nothing is outstanding. -/
def ShowsOneConversion (world : World (app double) service) : Prop :=
  ∀ (index process : Nat) (screen : CurrencyConverterViewController),
    world.objects[index]? = some ⟨process, screen⟩ → world.crashed process = false →
    screen.rows ≠ [] →
    ∃ past rates, Converts world index screen past rates ∧
      ∀ newest exchange, Idle requestsOf index world → Newest requestsOf index world newest →
        (newest, exchange) ∈ world.acknowledged → (deliveredRates exchange).isSome = true →
        past = newest

/-- The amount changes only while the table is empty, and rates are shown only while the
amount of their request is in force and before those of a later request. -/
def conversionKept (world : World (app double) service) : Event (app double) service → Bool
  | .input self .convertPressed =>
      (world.objects[self]?).all fun target =>
        target.object.rows.isEmpty ||
          pressedAmount double target.object == target.object.baseRate
  | .reply index =>
      (world.pending[index]?).all fun pending =>
        match pending.answer with
        | some (some rates) => rates.rates.isEmpty ||
            ((world.objects[pending.past.entry.self]?).all (fun target =>
              target.object.baseRate == amount pending.past.entry) &&
            world.acknowledged.all fun handled =>
              handled.1.entry.self != pending.past.entry.self ||
                (deliveredRates handled.2).isNone ||
                decide (handled.1.entry.serial < pending.past.entry.serial))
        | _ => true
  | _ => true

section Table

variable {screen : CurrencyConverterViewController}

/-- The cells of a list of rates, one by one. -/
theorem filterMap_range_map {Rate Cell : Type} (cell : Rate → Cell) (rates : List Rate) :
    (List.range rates.length).filterMap (fun row => (rates[row]?).map cell) = rates.map cell := by
  induction rates with
  | nil => rfl
  | cons rate rates inductionHypothesis =>
      rw [List.length_cons, List.range_succ_eq_map, List.filterMap_cons, List.filterMap_map]
      simpa [Function.comp_def] using inductionHypothesis

/-- The table has a row for each rate. -/
theorem table_of_results {data : CurrencyRates} (results : screen.results = some data) :
    table screen = data.rates.map fun rate => ⟨rate.1, round (screen.baseRate * rate.2) 2⟩ := by
  unfold table numberOfRowsInSection cellForRowAt
  rw [results]
  exact filterMap_range_map _ data.rates

theorem table_of_none (results : screen.results = none) : table screen = [] := by
  simp [table, numberOfRowsInSection, results]

/-- A row that scrolls in shows what it showed before. -/
theorem table_set_cellForRowAt (row : Nat) :
    (cellForRowAt screen row).elim (table screen) ((table screen).set row) = table screen := by
  cases results : screen.results with
  | none => simp [cellForRowAt, results]
  | some data =>
      rw [table_of_results results, cellForRowAt, results, Option.bind_some]
      cases found : data.rates[row]? with
      | none => rfl
      | some rate =>
          obtain ⟨bound, rfl⟩ := List.getElem?_eq_some_iff.mp found
          rw [Option.map_some, Option.elim_some, ← List.map_set, List.set_getElem_self]

/-- The converter creates no other. -/
abbrev unframed : Callback.Frame CurrencyConverterViewController :=
  .ofView (fun _ => ()) fun _ => False

/-- The rates that a converter shows, and their request. Its table shows them. -/
abbrev shownRates (double : String → Option ℚ) : Slot (app double) where
  frame := unframed
  owner _ := True
  Value := Option (Past (app double) × CurrencyRates)
  holds value screen := screen.results = value.map Prod.snd ∧ screen.rows = table screen
  initial := none
  writes past exchange := (deliveredRates exchange).map fun rates => some (past, rates)

theorem steady_loaded (answer : Option CurrencyRates) : (loaded answer).Steady unframed := by
  cases answer with
  | none => trivial
  | some rates => exact ⟨fun _ => rfl, fun _ => rfl, trivial⟩

theorem steady_handle (input : Input) : (handle double input).Steady unframed := by
  cases input with
  | viewDidLoad => exact fun _ => ⟨steady_loaded, trivial⟩
  | didSelectRow row => exact Code.steady_unwrap fun found => ⟨fun _ => rfl, trivial⟩
  | editAmount text => exact ⟨fun _ => rfl, trivial⟩
  | convertPressed => exact fun _ => ⟨steady_loaded, fun _ => rfl, fun _ => rfl, trivial⟩
  | cellForRowAt row => exact ⟨fun _ => rfl, trivial⟩

/-- The rates that are taken are shown at once. -/
theorem loaded_ends {past : Past (app double)} {base : String} (answer : Option CurrencyRates)
    {screen : CurrencyConverterViewController} {value : Option (Past (app double) × CurrencyRates)}
    (held : (shownRates double).holds value screen) :
    (loaded answer).Ends ((shownRates double).holds
      (((shownRates double).writes past ⟨.latest base, answer⟩).getD value)) screen := by
  cases answer with
  | none => exact held
  | some rates => exact ⟨rfl, rfl⟩

theorem shownRates_sound : (shownRates double).Sound where
  steady := steady_handle
  owner _ := Iff.rfl
  made _ pushed _ := pushed
  root _ _ := ⟨rfl, rfl⟩
  input past start _ := by
    obtain ⟨⟨serial, self, input, screen⟩, trail⟩ := past
    cases input with
    | viewDidLoad =>
        exact ⟨fun _ held => held, fun answer target _ =>
          ⟨fun _ held => loaded_ends answer held, by cases answer <;> trivial⟩, trivial⟩
    | didSelectRow row =>
        exact ⟨fun _ held => Slot.ends_unwrap fun found _ => held,
          Slot.respects_unwrap fun found _ => trivial⟩
    | editAmount text => exact ⟨fun _ held => held, trivial⟩
    | convertPressed =>
        exact ⟨fun _ held => ⟨held.1, rfl⟩, fun answer target _ =>
          ⟨fun _ held => loaded_ends answer held, by cases answer <;> trivial⟩, trivial⟩
    | cellForRowAt row =>
        refine ⟨fun _ held => ⟨held.1, ?_⟩, trivial⟩
        show (cellForRowAt screen row).elim screen.rows (screen.rows.set row) = table screen
        rw [held.2]
        exact table_set_cellForRowAt row

end Table

section Runs

variable {world next : World (app double) service} {event : Event (app double) service}

/-- An answer leaves the amount alone. -/
def KeepsAmount (_ : Request) (completion : Option CurrencyRates → Handler) : Prop :=
  ∀ answer screen, (completion answer).Ends (fun after => after.baseRate = screen.baseRate) screen

theorem loaded_keepsAmount {request : Request} : KeepsAmount request loaded := by
  intro answer screen
  cases answer <;> rfl

/-- Only a press changes the amount. -/
theorem handle_ends (double : String → Option ℚ) (input : Input)
    (screen : CurrencyConverterViewController) :
    (handle double input).Ends (fun after => after.baseRate = screen.baseRate ∨
      input = .convertPressed ∧ after.baseRate = pressedAmount double screen) screen := by
  cases input with
  | didSelectRow row => exact Slot.ends_unwrap fun found _ => .inl rfl
  | convertPressed => exact .inr ⟨rfl, rfl⟩
  | _ => exact .inl rfl

theorem calls_handle (input : Input) (screen : CurrencyConverterViewController) :
    (handle double input).Calls KeepsAmount screen := by
  have answers : ∀ answer target, (loaded answer).Calls KeepsAmount target := by
    intro answer target
    cases answer <;> trivial
  cases input with
  | viewDidLoad => exact ⟨loaded_keepsAmount, answers, trivial⟩
  | didSelectRow row => exact Code.calls_unwrap fun found _ => trivial
  | convertPressed => exact ⟨loaded_keepsAmount, answers, trivial⟩
  | _ => trivial

/-- The amount in force is that of the request whose rates are shown. -/
def InForce (world : World (app double) service) : Prop :=
  ∀ (index : Nat) (target : Instance (app double)) past rates,
    world.objects[index]? = some target → world.crashed target.process = false →
    world.lastWrite (shownRates double) index = some (some (past, rates)) → rates.rates ≠ [] →
    target.object.baseRate = amount past.entry

theorem InForce.step (inForce : InForce world) (slotted : Slotted (shownRates double) world)
    (calls : CallsPending KeepsAmount world) (kept : conversionKept world event = true)
    (taken : world.step event = some next) : InForce next := by
  intro index after past rates found runs written filled
  cases stepped_of_step taken with
  | launched =>
      rcases Nat.lt_or_ge index world.objects.length with below | beyond
      · rw [List.getElem?_append_left below] at found
        exact inForce index after past rates found runs written filled
      · have nothing := slotted.lastWrite_eq_none beyond
        exact absurd (nothing.symm.trans written) nofun
  | served => exact inForce index after past rates found runs written filled
  | @began self input target placed running =>
      have same : world.lastWrite (shownRates double) index = some (some (past, rates)) := by
        simpa [lastWrite] using written
      have ended := handle_ends double input target.object
      rcases (exec_executed shownRates_sound ended (steady_handle input) (by rfl) placed).placed
        found trivial with ⟨rfl, met⟩ | ⟨_, before⟩
      · have current := inForce index target past rates placed running same filled
        rcases met runs with unchanged | ⟨rfl, pressed⟩
        · exact unchanged.trans current
        · -- There are rates in the table, so that the press may not change the amount.
          obtain ⟨results, rows⟩ := slotted.value index target placed trivial running
          rw [same] at results
          rw [table_of_results results] at rows
          have shown : target.object.rows.isEmpty = false := by simpa [rows] using filled
          simp only [conversionKept, placed, Option.all_some, shown, Bool.false_or,
            beq_iff_eq] at kept
          exact (pressed.trans kept).trans current
      · have lives := exec_crashed runs
        exact inForce index after past rates before lives same filled
  | @completed position self older request completion response target pending placed running =>
      have ended := (calls _ (List.mem_of_getElem? pending)).1 response target.object
      have steady := slotted.steady _ (List.mem_of_getElem? pending) response
      rw [lastWrite_of_acknowledged (exec_acknowledged _ _ _ _ _)] at written
      have current : ∀ before : Instance (app double), world.objects[index]? = some before →
          world.crashed before.process = false → before.object.baseRate = amount past.entry := by
        intro before here lives
        rcases Option.or_eq_some_iff.mp written with taken | ⟨_, same⟩
        · obtain ⟨rfl, delivers⟩ := Option.ite_none_right_eq_some.mp taken
          obtain ⟨_, found, same⟩ := Option.map_eq_some_iff.mp delivers
          cases same
          obtain rfl : response = some rates := found
          -- The answer is taken while the amount of its request is in force.
          simp only [conversionKept, pending, Option.all_some, Bool.or_eq_true,
            List.isEmpty_iff, filled, false_or, Bool.and_eq_true, here, beq_iff_eq] at kept
          exact kept.1
        · exact inForce index before past rates here lives same filled
      rcases (exec_executed shownRates_sound ended steady (by rfl) placed).placed found trivial with
        ⟨rfl, met⟩ | ⟨_, before⟩
      · exact (met runs).trans (current target placed running)
      · have lives := exec_crashed runs
        exact current after before lives

/-- The rates are not empty. -/
def fills (exchange : Exchange rateService) : Bool :=
  (deliveredRates exchange).any fun rates => !rates.rates.isEmpty

/-- The rates that have filled a table are those of a later request than all before. -/
def Ordered (world : World (app double) service) : Prop :=
  world.acknowledged.Pairwise fun newer older => newer.1.entry.self = older.1.entry.self →
    fills newer.2 = true → (deliveredRates older.2).isSome = true →
    older.1.entry.serial < newer.1.entry.serial

theorem Ordered.step (ordered : Ordered world) (kept : conversionKept world event = true)
    (taken : world.step event = some next) : Ordered next := by
  unfold Ordered
  cases stepped_of_step taken with
  | launched => exact ordered
  | served => exact ordered
  | began => rw [exec_acknowledged]; exact ordered
  | @completed position self past request completion response target pending placed running =>
      rw [exec_acknowledged]
      refine List.pairwise_cons.mpr ⟨fun handled member same newer older => ?_, ordered⟩
      obtain ⟨rates, found, filled⟩ := (Option.any_eq_true _ _).mp newer
      obtain rfl : response = some rates := found
      simp only [conversionKept, pending, Option.all_some, Bool.or_eq_true,
        (Bool.not_eq_true' _).mp filled, Bool.false_eq_true, false_or, Bool.and_eq_true] at kept
      have before := List.all_eq_true.mp kept.2 handled member
      have delivers : (deliveredRates handled.2).isNone = false := by
        rw [← Option.not_isSome, older]
        rfl
      simpa [same.symm, delivers] using before

/-- The rates taken last are those of the newest request, if that has delivered some. -/
theorem Ordered.newest (ordered : Ordered world) {index : Nat} {past newest : Past (app double)}
    {rates : CurrencyRates} {exchange : Exchange rateService}
    (last : world.lastWrite (shownRates double) index = some (some (past, rates)))
    (filled : rates.rates ≠ []) (latest : Newest requestsOf index world newest)
    (handled : (newest, exchange) ∈ world.acknowledged)
    (delivers : (deliveredRates exchange).isSome = true) : past = newest := by
  obtain ⟨later, first, earlier, listed, writes, skipped⟩ := List.findSome?_eq_some_iff.mp last
  obtain ⟨own, writes⟩ := Option.ite_none_right_eq_some.mp writes
  obtain ⟨_, found, same⟩ := Option.map_eq_some_iff.mp writes
  cases same
  have owned : newest.entry.self = index := Option.some.inj latest.grouped
  rcases List.mem_append.mp (listed ▸ handled) with before | rest
  · -- The rates of the newest request have not been skipped.
    have silent := skipped _ before
    simp only [owned, if_true, Option.map_eq_none_iff] at silent
    rw [silent] at delivers
    cases delivers
  · rcases List.mem_cons.mp rest with here | after
    · rw [← here]
    · have pairs := ordered
      rw [Ordered, listed] at pairs
      have sorted := (List.pairwise_append.mp pairs).2.1
      have older := (List.pairwise_cons.mp sorted).1 _ after (own.trans owned.symm)
        (by simpa [fills, found] using filled) delivers
      have member : first ∈ world.acknowledged := listed ▸ by simp
      have bound := latest.latest first.1 (.handled member) (congrArg some own)
      exact absurd older (Nat.not_lt.mpr bound)

/-- A request is made when the converter opens or on a press, for the base selected then. -/
def Requested (past : Past (app double)) (request : Request) : Prop :=
  past.trail = [] ∧ (past.entry.input = .viewDidLoad ∨ past.entry.input = .convertPressed) ∧
    request = .latest past.entry.object.selectedCurrency

/-- The converter makes no other requests. -/
def requests (double : String → Option ℚ) (service : Service rateService) :
    Contract (app double) service where
  Evolves _ _ := True
  Server _ := True
  Object _ _ := True
  Request _ past request := Requested past request
  Response _ _ _ _ := True
  Fault _ := True
  InputGuard _ _ := True
  ServeGuard _ _ _ _ := True
  ReplyGuard _ _ _ _ := True

theorem requests_sound : (requests double service).Sound where
  refl _ := trivial
  trans _ _ := trivial
  object _ _ := trivial
  request _ requested := requested
  response _ _ := trivial
  root _ _ _ := trivial
  input server past screen input _ _ _ began shown start := by
    have answers : ∀ past later answer target,
        (requests double service).Safe later past (loaded answer) target := by
      intro past later answer target
      cases answer with
      | none => trivial
      | some rates => exact ⟨trivial, trivial, trivial⟩
    cases input with
    | viewDidLoad =>
        exact ⟨⟨start, .inl began, by rw [shown]⟩, fun _ _ _ _ _ _ _ _ => answers _ _ _ _, trivial⟩
    | didSelectRow row =>
        exact Contract.safe_unwrap.mpr ⟨fun _ => trivial, fun found _ => ⟨trivial, trivial⟩⟩
    | editAmount text => exact ⟨trivial, trivial⟩
    | convertPressed =>
        exact ⟨⟨start, .inr began, by rw [shown]⟩, fun _ _ _ _ _ _ _ _ => answers _ _ _ _,
          trivial, trivial, trivial⟩
    | cellForRowAt row => exact ⟨trivial, trivial⟩
  serve _ _ _ _ := ⟨trivial, trivial, trivial⟩

/-- A step that passes the test, from a world of handlers that keep the amount. -/
structure Keeps (world : World (app double) service) (event : Event (app double) service) :
    Prop where
  test : conversionKept world event = true
  slotted : Slotted (shownRates double) world
  calls : CallsPending KeepsAmount world

/-- What every world keeps whose steps pass the test. -/
structure Conversions (world : World (app double) service) : Prop where
  slotted : Slotted (shownRates double) world
  requests : (requests double service).Holds world
  inForce : InForce world
  ordered : Ordered world

theorem conversions_of_reaches {server : service.State}
    (reached : (World.machine (app double) service).Reaches conversionKept (.initial _ server)
      world) : Conversions world := by
  have guarded : Machine.Reachable (m := World.machine (app double) service) Keeps
      (.initial _ server) world :=
    reached.weakenWith fun prior kept _ => ⟨kept, slotted_of_reachable shownRates_sound prior,
      callsPending_of_reachable (fun _ _ => calls_handle _ _) prior⟩
  refine ⟨slotted_of_reachable shownRates_sound reached, ?_, ?_, ?_⟩
  · refine Contract.Holds.reachable requests_sound (Contract.holds_initial trivial)
      (reached.weaken fun state event _ => ?_)
    cases event <;> simp [Contract.guard, Currency.requests]
  · refine guarded.invariant ?_ fun inForce keeps taken =>
      inForce.step keeps.slotted keeps.calls keeps.test taken
    intro index target past rates placed
    cases placed
  · exact reached.invariant .nil fun ordered kept taken => ordered.step kept taken

/-- The request that has delivered the rates taken last. -/
theorem Conversions.request (conversions : Conversions world) {index : Nat}
    {past : Past (app double)} {rates : CurrencyRates}
    (last : world.lastWrite (shownRates double) index = some (some (past, rates))) :
    past.entry.self = index ∧ Requested past (.latest past.entry.object.selectedCurrency) ∧
      (past, ⟨.latest past.entry.object.selectedCurrency, some rates⟩) ∈ world.acknowledged := by
  obtain ⟨⟨older, request, answer⟩, member, writes⟩ := List.exists_of_findSome?_eq_some last
  obtain ⟨own, writes⟩ := Option.ite_none_right_eq_some.mp writes
  obtain ⟨_, found, same⟩ := Option.map_eq_some_iff.mp writes
  cases same
  obtain rfl : answer = some rates := found
  have requested : Requested older request := conversions.requests.acknowledged _ member
  obtain ⟨start, input, rfl⟩ := requested
  exact ⟨own, ⟨start, input, rfl⟩, member⟩

/-- The table shows the conversion of the request that has delivered its rates. -/
theorem Conversions.showsOneConversion (conversions : Conversions world) :
    ShowsOneConversion world := by
  intro index process screen placed runs nonempty
  obtain ⟨results, rows⟩ := conversions.slotted.value index _ placed trivial runs
  cases last : (world.lastWrite (shownRates double) index).getD none with
  | none =>
      rw [last] at results
      exact absurd (rows.trans (table_of_none results)) nonempty
  | some taken =>
      obtain ⟨past, rates⟩ := taken
      rw [last] at results
      have last : world.lastWrite (shownRates double) index = some (some (past, rates)) := by
        cases written : world.lastWrite (shownRates double) index with
        | none => rw [written] at last; cases last
        | some value => rw [written] at last; exact congrArg some last
      obtain ⟨own, requested, answered⟩ := conversions.request last
      have listing := rows.trans (table_of_results results)
      have filled : rates.rates ≠ [] := fun empty => nonempty (by simpa [empty] using listing)
      refine ⟨past, rates, ⟨own, requested.2.1, answered, fun row shown => ?_⟩,
        fun newest exchange _ latest handled delivers =>
          conversions.ordered.newest last filled latest handled delivers⟩
      have member : row ∈ _ := listing ▸ shown
      obtain ⟨rate, listed, rfl⟩ := List.mem_map.mp member
      have current := conversions.inForce index _ past rates placed runs last filled
      exact ⟨rate.2, listed, by rw [← current]⟩

end Runs

/-- While the amount changes only before the table is filled, and rates fill it only while
the amount of their request is in force and before those of a later request, the converter
shows one conversion, and in the end the last one. -/
theorem shows_one_conversion (double : String → Option ℚ) (service : Service rateService)
    (server : service.State) (world : World (app double) service)
    (reached : (World.machine (app double) service).Reaches conversionKept (.initial _ server)
      world) : ShowsOneConversion world :=
  (conversions_of_reaches reached).showsOneConversion

section Schedules

/-- Rates of any base, as a service may answer them. -/
abbrev exchangeRates : Service rateService where
  State := Unit
  Choice := Option CurrencyRates
  serve state _ rates := some (state, rates)

/-- The numbers that are written with digits only. -/
def digits (text : String) : Option ℚ :=
  if text.toList.isEmpty || !text.toList.all Char.isDigit then none
  else some <| text.toList.foldl
    (fun value digit => 10 * value + ((digit.toNat - '0'.toNat : Nat) : ℚ)) 0

/-- One US dollar costs four thirds of a Canadian one. -/
def usDollar : CurrencyRates := ⟨[("USD", 3 / 4)], by decide⟩

/-- The converter opens and the rates of the Canadian dollar arrive. -/
def opening : List (Event (app digits) exchangeRates) :=
  [.launch 0 (), .input 0 .viewDidLoad, .serve 0 (some usDollar), .reply 0]

/-- The first converter shows this amount of US dollars, and all rates that have arrived
are for one Canadian dollar. -/
def showsDollars (dollars : ℚ) (world : World (app digits) exchangeRates) : Bool :=
  match (world.objects[0]? : Option (Instance (app digits))) with
  | some ⟨process, screen⟩ =>
      !world.crashed process && screen.rows == [⟨"USD", dollars⟩] &&
        world.acknowledged.all fun handled => amount handled.1.entry == 1 &&
          (deliveredRates handled.2).all fun found => found.rates == usDollar.rates
  | none => false

/-- A table of one conversion shows the rates as they have arrived. -/
theorem ShowsOneConversion.dollars {world : World (app digits) exchangeRates} {dollars : ℚ}
    (conversion : ShowsOneConversion world) (shown : showsDollars dollars world = true) :
    dollars = 3 / 4 := by
  unfold showsDollars at shown
  split at shown
  · rename_i process screen placed
    simp only [Bool.and_eq_true, Bool.not_eq_true', beq_iff_eq] at shown
    obtain ⟨⟨runs, rows⟩, arrived⟩ := shown
    obtain ⟨past, rates, converts, _⟩ := conversion 0 process screen placed runs (by simp [rows])
    have first := List.all_eq_true.mp arrived _ converts.answered
    simp only [deliveredRates, Option.all_some, Bool.and_eq_true, beq_iff_eq] at first
    obtain ⟨rate, listed, same⟩ := converts.rows ⟨"USD", dollars⟩ (by simp [rows])
    rw [first.2] at listed
    obtain rfl : rate = 3 / 4 := by simpa [usDollar] using listed
    rw [first.1] at same
    exact same.trans (by decide +kernel)
  · cases shown

/-- The rates for one Canadian dollar are shown. -/
theorem shows_one_conversion_opened :
    ∃ world : World (app digits) exchangeRates,
      showsDollars (3 / 4) world = true ∧ ShowsOneConversion world := by
  obtain ⟨world, reached, shown⟩ := Machine.exists_reaches
    (m := World.machine (app digits) exchangeRates) conversionKept (.initial _ ()) opening
    (showsDollars (3 / 4)) (by decide +kernel)
  exact ⟨world, shown, shows_one_conversion _ _ () world reached⟩

/-- A press doubles what is shown at once; its rates have not arrived. -/
theorem shows_mixed_conversion :
    ¬ ∀ (double : String → Option ℚ) (service : Service rateService) (server : service.State)
        (world : World (app double) service),
      (World.machine (app double) service).Reaches (Machine.anyStep _) (.initial _ server) world →
      ShowsOneConversion world := by
  intro conversion
  obtain ⟨world, reached, shown⟩ := Machine.exists_reaches
    (m := World.machine (app digits) exchangeRates) (Machine.anyStep _) (.initial _ ())
    (opening ++ [.input 0 (.editAmount "2"), .input 0 .convertPressed])
    (showsDollars (3 / 2)) (by decide +kernel)
  have same := (conversion _ _ () world reached).dollars shown
  revert same
  decide +kernel

end Schedules

end Gbc.Currency
