import AlphaPipeline.Db.PipelineRuns

/-!
# Exposure

The two statements of the client as the server runs them on the table of positions, and what an
exposure query is completed with. Quantities and prices are `integer` columns; a product of them
is an `integer` again and is formed before the sum, which is a `bigint`.
-/
namespace AlphaPipeline.Postgres

/-- What `alpha_pg_upsert_position` accepts, the numbers being of type `int32_t`. -/
structure Accepted (p : Position) : Prop where
  ticker : p.ticker ≠ []
  name : p.name ≠ []
  accountScope : p.accountScope ≠ []
  bought : 0 < p.quantity
  quantity : Fits 32 p.quantity
  avgPrice : Fits 32 p.avgPrice
  currentPrice : Fits 32 p.currentPrice

/-! ### The server -/

/-- The row that `UPSERT_POSITION_SQL` makes of its parameters. The strategy, which is `NULL` for
an empty text, is kept as the text. -/
def rowOf : List Text → Option Position
  | [ticker, name, quantity, avgPrice, currentPrice, isPaper, accountScope, strategyId] => do
    let quantity ← parseI32 quantity
    let avgPrice ← parseI32 avgPrice
    let currentPrice ← parseI32 currentPrice
    some ⟨ticker, name, quantity, avgPrice, currentPrice, isPaper == "true".toList, accountScope,
      strategyId⟩
  | _ => none

/-- The key of the conflict clause. -/
def Position.key (p : Position) : Text × Text × Text := (p.ticker, p.accountScope, p.strategyId)

/-- `INSERT … ON CONFLICT … DO UPDATE`: the row with the key is updated, or a new one added. -/
def upsert (table : List Position) (p : Position) : List Position :=
  if table.any (fun row => row.key = p.key) then
    table.map fun row =>
      if row.key = p.key then
        { row with
          name := p.name
          quantity := p.quantity
          avgPrice := p.avgPrice
          currentPrice := p.currentPrice
          isPaper := p.isPaper }
      else row
  else table ++ [p]

/-- The table after these positions were upserted, one after the other. -/
def stored (positions : List Position) : List Position := positions.foldl upsert []

/-- `COALESCE(strategy_id,'default')`. -/
def Position.strategy (p : Position) : Text :=
  if p.strategyId = [] then "default".toList else p.strategyId

/-- `quantity*current_price`. -/
def Position.value (p : Position) : Int := p.quantity * p.currentPrice

/-- `SUM(quantity*current_price)`, absent where the server reports an error: a product that is no
`integer`, or a sum that is no `bigint`. -/
def sumOfProducts (rows : List Position) : Option Int := do
  let products ← rows.mapM fun p => signed 32 p.value
  signed 64 products.sum

/-- The row of `EXPOSURE_SQL`, absent where the server reports an error. -/
def exposureSql (table : List Position) (ticker : Text) : Option (List Text) := do
  let own := table.filter fun p => p.ticker = ticker ∧ 0 < p.quantity
  let totalQuantity ← signed 64 (own.map Position.quantity).sum
  let totalMarketValue ← sumOfProducts own
  let totalAum ← sumOfProducts (table.filter fun p => 0 < p.quantity)
  let strategyCount ← signed 32 (own.map Position.strategy).dedup.length
  some [ticker, printDecimal totalQuantity, printDecimal totalMarketValue, printDecimal totalAum,
    printDecimal strategyCount]

/-- `PGRES_FATAL_ERROR` -/
def fatalError : ExecStatus := .other 7

/-- What libpq hands over for an exposure query. -/
def answerExposure (table : List Position) (ticker : Text) : PgResult :=
  match exposureSql table ticker with
  | some row => ⟨.tuplesOk, [row], []⟩
  | none => ⟨fatalError, [], "ERROR:  integer out of range".toList⟩

/-! ### The client's part -/

/-- What a result completes the request at the head with. -/
def headOutcome (c : Client) (pg : PgResult) : PgOutcome :=
  match parseValue c.db.front.kind pg with
  | some value => ⟨c.db.front.kind, .ok, some value⟩
  | none => ⟨c.db.front.kind, .db, none⟩

theorem deliver_headOutcome (c : Client) (pg : PgResult) (reaction : List Submission) :
    ∃ db, SamePipeline c.db db ∧
      deliver c pg reaction = completeHead ⟨db, c.trace⟩ (headOutcome c pg) reaction := by
  simp only [deliver, headOutcome]
  cases parseValue c.db.front.kind pg with
  | some value => exact ⟨c.db, ⟨rfl, rfl, rfl, rfl, rfl⟩, rfl⟩
  | none => exact ⟨_, samePipeline_setError c.db _, rfl⟩

theorem parseI64_printDecimal {n : Int} (fits : Fits 64 n) :
    parseI64 (printDecimal n) = some n := by
  have high : ¬ n > int64Max := by unfold Fits at fits; unfold int64Max; omega
  have low : ¬ n < -int64Max - 1 := by unfold Fits at fits; unfold int64Max; omega
  simp [parseI64, strtoll_printDecimal, saturate, high, low]

theorem parseI32_printDecimal {n : Int} (fits : Fits 32 n) :
    parseI32 (printDecimal n) = some n := by
  have wide : Fits 64 n := by unfold Fits at fits ⊢; omega
  have range : ¬ (n < -2147483648 ∨ n > 2147483647) := by unfold Fits at fits; omega
  simp only [parseI32, parseI64_printDecimal wide, Option.bind_eq_bind, Option.bind_some,
    if_neg range]

theorem sendRequest_trace {c : Client} {kind : ResultKind} {params : List Text}
    {callback : Option Nat} {userData : Nat} {libpq : SendAnswer}
    (sent : (sendRequest c kind params callback userData libpq).1 = .ok) :
    (sendRequest c kind params callback userData libpq).2.trace =
      c.trace ++ [.sent ⟨kind, callback, userData⟩ params] := by
  simp only [sendRequest] at sent ⊢
  split at sent
  · cases sent
  next ready =>
    split at sent
    · cases sent
    next room =>
      split at sent
      · cases sent
      next unsynced =>
        split at sent
        · cases sent
        next taken => rw [if_neg ready, if_neg room, if_neg unsynced, if_neg taken]; rfl

/-- What an accepted position is sent as is the position's row. -/
theorem upsert_sends_row {c : Client} {p : Position} {callback : Option Nat} {userData : Nat}
    {libpq : SendAnswer} (accepted : Accepted p)
    (sent : (alphaPgUpsertPosition c (some p) callback userData libpq).1 = .ok) :
    ∃ params, rowOf params = some p ∧
      (alphaPgUpsertPosition c (some p) callback userData libpq).2.trace =
        c.trace ++ [.sent ⟨.position, callback, userData⟩ params] := by
  have valid : ¬ (p.ticker = [] ∨ p.name = [] ∨ p.quantity ≤ 0 ∨ p.accountScope = []) := by
    rintro (empty | empty | flat | empty)
    · exact accepted.ticker empty
    · exact accepted.name empty
    · exact absurd accepted.bought (not_lt.mpr flat)
    · exact accepted.accountScope empty
  simp only [alphaPgUpsertPosition, if_neg valid] at sent ⊢
  have paper : ((if p.isPaper then "true" else "false").toList == "true".toList) = p.isPaper := by
    cases p.isPaper <;> rfl
  refine ⟨[p.ticker, p.name, printDecimal p.quantity, printDecimal p.avgPrice,
    printDecimal p.currentPrice, (if p.isPaper then "true" else "false").toList,
    p.accountScope, p.strategyId], ?_, ?_⟩
  · simp only [rowOf, parseI32_printDecimal accepted.quantity,
      parseI32_printDecimal accepted.avgPrice, parseI32_printDecimal accepted.currentPrice,
      Option.bind_eq_bind, Option.bind_some, paper]
  · exact sendRequest_trace sent

/-! ### The sums -/

theorem mapM_signed {rows : List Position} {products : List Int} :
    (rows.mapM fun p => signed 32 p.value) = some products ↔
      (∀ p ∈ rows, Fits 32 p.value) ∧ rows.map Position.value = products := by
  induction rows generalizing products with
  | nil => simp
  | cons p rows ih =>
    simp only [List.mapM_cons, Option.bind_eq_bind, Option.bind_eq_some_iff, signed_eq_some,
      Option.pure_def, Option.some.injEq, ih, List.forall_mem_cons, List.map_cons]
    constructor
    · rintro ⟨_, ⟨first, rfl⟩, _, ⟨rest, rfl⟩, rfl⟩
      exact ⟨⟨first, rest⟩, rfl⟩
    · rintro ⟨⟨first, rest⟩, rfl⟩
      exact ⟨_, ⟨first, rfl⟩, _, ⟨rest, rfl⟩, rfl⟩

theorem sumOfProducts_eq_some {rows : List Position} {sum : Int} :
    sumOfProducts rows = some sum ↔
      (∀ p ∈ rows, Fits 32 p.value) ∧ Fits 64 (rows.map Position.value).sum ∧
        (rows.map Position.value).sum = sum := by
  simp only [sumOfProducts, Option.bind_eq_bind, Option.bind_eq_some_iff, mapM_signed,
    signed_eq_some]
  constructor
  · rintro ⟨_, ⟨products, rfl⟩, fits, same⟩
    exact ⟨products, fits, same⟩
  · rintro ⟨products, fits, same⟩
    exact ⟨_, ⟨products, rfl⟩, fits, same⟩

/-! ### The table -/

theorem accepted_upsert {table : List Position} {p : Position}
    (rows : ∀ row ∈ table, Accepted row) (accepted : Accepted p) :
    ∀ row ∈ upsert table p, Accepted row := by
  intro row member
  rw [upsert] at member
  split at member
  · obtain ⟨old, stored, rfl⟩ := List.mem_map.mp member
    have kept := rows old stored
    split
    · exact { accepted with
        ticker := kept.ticker
        accountScope := kept.accountScope }
    · exact kept
  · rcases List.mem_append.mp member with old | new
    · exact rows row old
    · rw [List.mem_singleton.mp new]
      exact accepted

/-- Nothing but accepted positions gets into the table. -/
theorem accepted_stored {positions : List Position} (accepted : ∀ p ∈ positions, Accepted p) :
    ∀ row ∈ stored positions, Accepted row := by
  have run (table : List Position) (rows : ∀ row ∈ table, Accepted row) :
      ∀ row ∈ positions.foldl upsert table, Accepted row := by
    induction positions generalizing table with
    | nil => exact rows
    | cons p positions ih =>
      rw [List.forall_mem_cons] at accepted
      exact ih accepted.2 _ (accepted_upsert rows accepted.1)
  exact run [] nofun

variable {table : List Position} {ticker : Text}

/-- The positions of the ticker. -/
def ownRows (table : List Position) (ticker : Text) : List Position :=
  table.filter fun p => p.ticker = ticker

/-- How many strategies hold the ticker. -/
def strategies (table : List Position) (ticker : Text) : Nat :=
  ((ownRows table ticker).map Position.strategy).dedup.length

/-- The sums of the products are 64-bit integers. -/
structure SumsFit (table : List Position) (ticker : Text) : Prop where
  marketValue : Fits 64 ((ownRows table ticker).map Position.value).sum
  aum : Fits 64 (table.map Position.value).sum

/-- What else the server needs for an answer: each product is an `integer`, also those of other
tickers, and so is the number of strategies; the sum of the quantities is a `bigint`. -/
structure Answerable (table : List Position) (ticker : Text) : Prop where
  products : ∀ p ∈ table, Fits 32 (p.quantity * p.currentPrice)
  quantity : Fits 64 ((ownRows table ticker).map Position.quantity).sum
  count : Fits 32 (strategies table ticker)

theorem exposureSql_eq_some (rows : ∀ row ∈ table, Accepted row) {row : List Text} :
    exposureSql table ticker = some row ↔
      SumsFit table ticker ∧ Answerable table ticker ∧
        row = [ticker, printDecimal ((ownRows table ticker).map Position.quantity).sum,
          printDecimal ((ownRows table ticker).map Position.value).sum,
          printDecimal (table.map Position.value).sum,
          printDecimal (strategies table ticker)] := by
  -- no row is dropped for its quantity
  have own : (table.filter fun p => p.ticker = ticker ∧ 0 < p.quantity) = ownRows table ticker := by
    apply List.filter_congr
    intro p member
    simp [(rows p member).bought]
  have live : (table.filter fun p => 0 < p.quantity) = table :=
    List.filter_eq_self.mpr fun p member => decide_eq_true (rows p member).bought
  simp only [exposureSql, own, live, Option.bind_eq_bind, Option.bind_eq_some_iff, signed_eq_some,
    sumOfProducts_eq_some, Option.some.injEq, strategies]
  constructor
  · rintro ⟨_, ⟨quantity, rfl⟩, _, ⟨_, marketValue, rfl⟩, _, ⟨products, aum, rfl⟩, _, ⟨count, rfl⟩,
      rfl⟩
    exact ⟨⟨marketValue, aum⟩, ⟨products, quantity, count⟩, rfl⟩
  · rintro ⟨⟨marketValue, aum⟩, ⟨products, quantity, count⟩, rfl⟩
    have mine : ∀ p ∈ ownRows table ticker, Fits 32 p.value :=
      fun p member => products p (List.mem_of_mem_filter member)
    exact ⟨_, ⟨quantity, rfl⟩, _, ⟨mine, marketValue, rfl⟩, _, ⟨products, aum, rfl⟩, _,
      ⟨count, rfl⟩, rfl⟩

/-- Numbers that fit are read back as they were printed. -/
theorem parseExposure_row {quantity marketValue aum count : Int} (short : ticker.length < textCap)
    (fitsQuantity : Fits 64 quantity) (fitsValue : Fits 64 marketValue) (fitsAum : Fits 64 aum)
    (fitsCount : Fits 32 count) :
    parseExposure ⟨.tuplesOk, [[ticker, printDecimal quantity, printDecimal marketValue,
        printDecimal aum, printDecimal count]], []⟩ =
      some ⟨ticker, quantity, marketValue, aum, count,
        alphaRoundDp (if aum > 0 then marketValue / aum * 100 else 0) 2⟩ := by
  simp [parseExposure, PgResult.getValue, copyText, not_le.mpr short,
    parseI64_printDecimal fitsQuantity, parseI64_printDecimal fitsValue,
    parseI64_printDecimal fitsAum, parseI32_printDecimal fitsCount]

theorem short_of_sent {c : Client} {callback : Option Nat} {userData : Nat} {libpq : SendAnswer}
    (sent : (alphaPgQueryExposure c (some ticker) callback userData libpq).1 = .ok) :
    ticker.length < textCap := by
  simp only [alphaPgQueryExposure] at sent
  split at sent
  · cases sent
  next valid => exact not_le.mp (not_or.mp valid).2

theorem headOutcome_answered {c : Client} {row : List Text} {exposure : Exposure}
    (query : c.db.front.kind = .exposure) (answered : exposureSql table ticker = some row)
    (parsed : parseExposure ⟨.tuplesOk, [row], []⟩ = some exposure) :
    headOutcome c (answerExposure table ticker) =
      ⟨.exposure, .ok, some (.exposure exposure)⟩ := by
  rw [headOutcome, answerExposure, answered, query]
  simp only [parseValue, if_true, parsed, Option.map_some]

theorem headOutcome_refused {c : Client} (query : c.db.front.kind = .exposure)
    (refused : exposureSql table ticker = none) :
    headOutcome c (answerExposure table ticker) = ⟨.exposure, .db, none⟩ := by
  rw [headOutcome, answerExposure, refused, query]
  rfl

/-- An exposure query that was sent is completed, when it is at the head, with `ALPHA_OK` and the
exact sums of `quantity*current_price`, if these fit 64 bits, exactly when each position's product
fits 32 bits, as the ticker's number of strategies does, and its quantities sum to 64 bits. -/
theorem exposure_exact_iff {positions : List Position} (accepted : ∀ p ∈ positions, Accepted p)
    {before : Client} {callback : Option Nat} {userData : Nat} {libpq : SendAnswer}
    (sent : (alphaPgQueryExposure before (some ticker) callback userData libpq).1 = .ok)
    (sums : SumsFit (stored positions) ticker)
    {c : Client} (query : c.db.front = ⟨.exposure, callback, userData⟩)
    (reaction : List Submission) :
    (∃ db, SamePipeline c.db db ∧
      deliver c (answerExposure (stored positions) ticker) reaction =
        completeHead ⟨db, c.trace⟩ (headOutcome c (answerExposure (stored positions) ticker))
          reaction) ∧
    ((∃ exposure, headOutcome c (answerExposure (stored positions) ticker) =
        ⟨.exposure, .ok, some (.exposure exposure)⟩ ∧
      exposure.ticker = ticker ∧
      exposure.totalMarketValue =
        ((ownRows (stored positions) ticker).map Position.value).sum ∧
      exposure.totalAum = ((stored positions).map Position.value).sum) ↔
      Answerable (stored positions) ticker) := by
  have rows := accepted_stored accepted
  have kind : c.db.front.kind = .exposure := by rw [query]
  refine ⟨deliver_headOutcome c _ reaction, ?_, ?_⟩
  · rintro ⟨exposure, outcome, -⟩
    cases answered : exposureSql (stored positions) ticker with
    | some row =>
      obtain ⟨-, answerable, -⟩ := (exposureSql_eq_some rows).mp answered
      exact answerable
    | none =>
      rw [headOutcome_refused kind answered] at outcome
      cases outcome
  · intro answerable
    have answered := (exposureSql_eq_some rows).mpr ⟨sums, answerable, rfl⟩
    have parsed := parseExposure_row (short_of_sent sent) answerable.quantity sums.marketValue
      sums.aum answerable.count
    exact ⟨_, headOutcome_answered kind answered parsed, rfl, rfl, rfl⟩

/-- A client that waits for nothing. -/
def idle : Client := ⟨⟨.ready, .ok, false, false, [default, default], 2, 0, 0, []⟩, []⟩

/-- The client after it has sent an exposure query. -/
def asked (ticker : Text) : Client :=
  (alphaPgQueryExposure idle (some ticker) (some 0) 0 ⟨true, [], 0⟩).2

/-- `position` of the tests. -/
def fixture (ticker strategy : Text) (quantity currentPrice : Int) : Position :=
  ⟨ticker, "P3 libpq fixture".toList, quantity, 1000, currentPrice, true, "paper".toList, strategy⟩

theorem accepted_fixture {ticker strategy : Text} {quantity currentPrice : Int}
    (named : ticker ≠ []) (bought : 0 < quantity) (quantityFits : Fits 32 quantity)
    (priceFits : Fits 32 currentPrice) :
    Accepted (fixture ticker strategy quantity currentPrice) where
  ticker := named
  name := (by decide : "P3 libpq fixture".toList ≠ [])
  accountScope := (by decide : "paper".toList ≠ [])
  bought := bought
  quantity := quantityFits
  avgPrice := (by decide : Fits 32 1000)
  currentPrice := priceFits

theorem exposure_exact_iff_fixture :
    ∃ exposure, headOutcome (asked "ZPGGOLDEN".toList) (answerExposure
        (stored [fixture "ZPGGOLDEN".toList "p3a".toList 2 1010,
          fixture "ZPGGOLDEN".toList "p3b".toList 3 1040]) "ZPGGOLDEN".toList) =
        ⟨.exposure, .ok, some (.exposure exposure)⟩ ∧
      exposure.ticker = "ZPGGOLDEN".toList ∧
      exposure.totalMarketValue = 5140 ∧ exposure.totalAum = 5140 := by
  have accepted : ∀ p ∈ [fixture "ZPGGOLDEN".toList "p3a".toList 2 1010,
      fixture "ZPGGOLDEN".toList "p3b".toList 3 1040], Accepted p := by
    simp only [List.forall_mem_cons]
    exact ⟨accepted_fixture (by decide) (by decide) (by decide) (by decide),
      accepted_fixture (by decide) (by decide) (by decide) (by decide), nofun⟩
  have sent : (alphaPgQueryExposure idle (some "ZPGGOLDEN".toList) (some 0) 0
      ⟨true, [], 0⟩).1 = .ok := by decide
  exact (exposure_exact_iff accepted sent ⟨by decide, by decide⟩ rfl []).2.mpr
    ⟨by decide, by decide, by decide⟩

/-- A position of 50000 shares at 50000 makes the query of a ticker without positions fail. -/
theorem exposure_product_overflows :
    Accepted (fixture "ZPGGOLDEN".toList "p3a".toList 50000 50000) ∧
    (alphaPgQueryExposure idle (some "ZPGABSENT".toList) (some 0) 0 ⟨true, [], 0⟩).1 = .ok ∧
    SumsFit (stored [fixture "ZPGGOLDEN".toList "p3a".toList 50000 50000]) "ZPGABSENT".toList ∧
    headOutcome (asked "ZPGABSENT".toList) (answerExposure
        (stored [fixture "ZPGGOLDEN".toList "p3a".toList 50000 50000]) "ZPGABSENT".toList) =
      ⟨.exposure, .db, none⟩ := by
  refine ⟨accepted_fixture (by decide) (by decide) (by decide) (by decide),
    by decide, ⟨by decide, by decide⟩, ?_⟩
  exact headOutcome_refused rfl rfl

end AlphaPipeline.Postgres
