import AlphaPipeline.Bench.Workers
import AlphaPipeline.Cache.RedisServer
import AlphaPipeline.Db.Exposure

/-!
# The PostgreSQL case

All workers write the same rows of one ticker and sum them up. The server takes their statements in
any order, one at a time; a statement may be lost or refused.

Of PostgreSQL it is assumed that a statement outside a transaction is one: it takes effect as a
whole, before or after any other, and not at all if it fails. Nobody else writes the rows of the
ticker.
-/
namespace AlphaPipeline.Bench.ReadWrite

open Interaction (Prog together)
open Redis (Fate)
open Postgres (Position ownRows sumOfProducts)

/-! ### The server -/

/-- The statements of both adapters. -/
inductive Statement where
  | upsert (p : Position)
  | exposure (ticker : Text)
  | rows (ticker : Text)
  | delete (ticker : Text)
  | selectOne

/-- A row of the last query. -/
structure Row where
  strategyId : Text
  quantity : Int
  currentPrice : Int
  deriving DecidableEq

def rowOf (p : Position) : Row := ⟨p.strategyId, p.quantity, p.currentPrice⟩

inductive Result where
  | done
  | sums (quantity value : Int)
  | rows (rows : List Row)

/-- `INSERT … ON CONFLICT … DO UPDATE` of the adapters, which updates the two numbers only. -/
def refresh (p row : Position) : Position :=
  if row.key = p.key then { row with quantity := p.quantity, currentPrice := p.currentPrice }
  else row

@[inherit_doc refresh]
def upsert (table : List Position) (p : Position) : List Position :=
  if table.any (fun row => row.key = p.key) then table.map (refresh p) else table ++ [p]

/-- The sums over the rows of a ticker that hold something, absent where they overflow. -/
def exposure (table : List Position) (ticker : Text) : Option (Int × Int) := do
  let own := table.filter fun p => p.ticker = ticker ∧ 0 < p.quantity
  let quantity ← signed 64 (own.map Position.quantity).sum
  let value ← sumOfProducts own
  some (quantity, value)

/-- `ORDER BY strategy_id`, in a database whose collation is the order of the code points (`C`).
Under another one the strategies of a case would have to ascend in that one. -/
def sorted (rows : List Position) : List Position :=
  rows.insertionSort fun left right => left.strategyId ≤ right.strategyId

/-- What PostgreSQL does with a statement: a result, absent for an error, and the table
afterwards. -/
def exec (table : List Position) : Statement → Option Result × List Position
  | .upsert p =>
    if Fits 32 p.quantity ∧ Fits 32 p.currentPrice then (some .done, upsert table p)
    else (none, table)
  | .exposure ticker => ((exposure table ticker).map fun sums => .sums sums.1 sums.2, table)
  | .rows ticker => (some (.rows ((sorted (ownRows table ticker)).map rowOf)), table)
  | .delete ticker => (some .done, table.filter fun p => p.ticker ≠ ticker)
  | .selectOne => (some .done, table)

/-- The result the client sees, absent for an error or if it is lost, and the table afterwards. A
statement that is refused changes nothing; of one that is lost it is not known whether it did. -/
def meet (fate : Fate) (c : Statement) (table : List Position) : Option Result × List Position :=
  match fate with
  | .served => exec table c
  | .lost | .refused _ => (none, table)
  | .unheard => (none, (exec table c).2)

def unserved (fate : Fate) : Bool := fate ≠ .served

/-- One client alone, its statements meeting the given fates in order. -/
def serial (c : Statement) (s : List Fate × List Position) :
    Option Result × (List Fate × List Position) :=
  match s.1 with
  | [] => (none, s)
  | fate :: rest => ((meet fate c s.2).1, rest, (meet fate c s.2).2)

/-! ### The adapters -/

/-- What an operation of the fixture asks for. -/
inductive Op where
  | upsertPosition (quantity currentPrice : Int) (accountScope strategyId : Text)
  | readExposure (totalQuantity totalMarketValue : Int)
  | other
  deriving DecidableEq

/-- The ticker of a namespace, by the first digits of its checksum. -/
def tickerOf (suffix : Text) : Text := "M2".toList ++ suffix

/-- The row that the adapters insert. -/
def fixtureRow (ticker : Text) (quantity currentPrice : Int) (accountScope strategyId : Text) :
    Position :=
  ⟨ticker, "MVP-2 fixture".toList, quantity, 1000, currentPrice, true, accountScope, strategyId⟩

def readDone : Option Result → Option Unit
  | some .done => some ()
  | _ => none

def readSums : Option Result → Option (Int × Int)
  | some (.sums quantity value) => some (quantity, value)
  | _ => none

def readRows : Option Result → Option (List Row)
  | some (.rows rows) => some rows
  | _ => none

/-- How both adapters perform an operation; they differ in what they make of one they do not
know. -/
def perform (unknown : Answer) (ticker : Text) (elapsed : Nat) :
    Op → Prog Statement (Option Result) Answer
  | .upsertPosition quantity currentPrice accountScope strategyId => do
    let result ← Prog.ask
      (.upsert (fixtureRow ticker quantity currentPrice accountScope strategyId))
    pure (settle elapsed ((readDone result).map fun _ => true))
  | .readExposure totalQuantity totalMarketValue => do
    let result ← Prog.ask (.exposure ticker)
    pure (settle elapsed ((readSums result).map fun sums =>
      sums.1 = totalQuantity ∧ sums.2 = totalMarketValue))
  | .other => pure unknown

/-- What a case of the fixture says, with what its operations ask for. -/
structure Case where
  config : CaseConfig
  ops : List Op
  paired : ops.length = config.operations.length

/-- The operation at a place, timed. -/
def Case.performs (case : Case) (unknown : Nat → Answer) (ticker : Text) (timer : Nat → Nat → Nat)
    (iteration place : Nat) : Prog Statement (Option Result) Answer :=
  match case.ops[place]? with
  | some op => perform (unknown (timer iteration place)) ticker (timer iteration place) op
  | none => pure .failed

/-- Before the workers: the rows of the ticker are deleted. -/
def prologue (ticker : Text) : Prog Statement (Option Result) (Option Unit) :=
  .reading readDone (.delete ticker) fun _ =>
    .reading readDone .selectOne fun _ => pure (some ())

/-- `terminal`: two rows of the ticker, and the sums. -/
structure Terminal where
  first : Row
  second : Row
  totalQuantity : Int
  totalMarketValue : Int
  deriving DecidableEq

/-- `rows[0]` and `rows[1]`. -/
def firstTwo : List Row → Option (Row × Row)
  | first :: second :: _ => some (first, second)
  | _ => none

/-- After the workers; the rows are deleted again. The Rust adapter refuses any number of rows but
two, and does so at once; the Python adapter takes the first two in the end. -/
def epilogue (checks : List Row → Bool) (ticker : Text) :
    Prog Statement (Option Result) (Option Terminal) :=
  .reading (fun result => (readRows result).filter checks) (.rows ticker) fun rows =>
    .reading readSums (.exposure ticker) fun sums =>
      .reading readDone (.delete ticker) fun _ =>
        pure ((firstTwo rows).map fun two => ⟨two.1, two.2, sums.1, sums.2⟩)

/-- What the statements of a case meet: before the workers, those of the workers by the order in
which they are served, and after them. -/
structure Service where
  before : List Fate
  during : List (Nat × Fate)
  after : List Fate

/-- A case of either adapter: the terminal and the table that is left. -/
def dbCase (ticker : Text) (service : Service)
    (workers : List (Prog Statement (Option Result) (List Completion × Nat)))
    (ending : Prog Statement (Option Result) (Option Terminal))
    (collect : List (List Completion × Nat) → Option CaseRun) (table : List Position) :
    Option (CaseRun × Terminal × List Position) := do
  let opened := (prologue ticker).run serial (service.before, table)
  let _ ← opened.1
  let (outs, last) ← together meet service.during workers opened.2.2
  let ended := ending.run serial (service.after, last)
  let terminal ← ended.1
  let out ← collect outs
  some (out, terminal, ended.2.2)

/-- `db_case` of the Rust adapter, which refuses an operation it does not know. -/
def rustDbCase (case : Case) (concurrency : Nat) (ticker : Text) (timer : Nat → Nat → Nat)
    (service : Service) : List Position → Option (CaseRun × Terminal × List Position) :=
  dbCase ticker service
    (workersOn (rustValuesOn (case.performs (fun _ => .failed) ticker timer) case.config.operations)
      (rustRanges (distribute case.config.repeats.toNat concurrency)))
    (epilogue (fun rows => rows.length = 2) ticker) fun outs => some (rustCollect outs)

/-- `db_case` of the Python adapter, which skips an operation it does not know. -/
def pythonDbCase (case : Case) (concurrency : Nat) (ticker : Text) (timer : Nat → Nat → Nat)
    (service : Service) (appends : List Nat) :
    List Position → Option (CaseRun × Terminal × List Position) :=
  dbCase ticker service
    (workersOn (pythonValuesOn (case.performs .expected ticker timer) case.config.operations)
      (pythonRanges (distribute case.config.repeats.toNat concurrency) concurrency))
    (epilogue (fun _ => true) ticker) (pythonCollect appends)

/-! ### The same rows for all -/

/-- The row an operation writes. -/
def Op.row (ticker : Text) : Op → Option Position
  | .upsertPosition quantity currentPrice accountScope strategyId =>
    some (fixtureRow ticker quantity currentPrice accountScope strategyId)
  | _ => none

/-- The rows that the operations before a place write. -/
def Case.written (case : Case) (ticker : Text) (place : Nat) : List Position :=
  (case.ops.take place).filterMap (Op.row ticker)

/-- All rows of the case. -/
def Case.targets (case : Case) (ticker : Text) : List Position :=
  case.ops.filterMap (Op.row ticker)

/-- The rows of a case have different keys and hold something, and are only summed up after they
have all been written. -/
def Case.consistent (case : Case) (ticker : Text) : Bool :=
  ((case.targets ticker).map Position.key).Nodup ∧
    (∀ p ∈ case.targets ticker, 0 < p.quantity ∧ Fits 32 p.quantity ∧ Fits 32 p.currentPrice) ∧
    case.ops.zipIdx.all fun (op, place) =>
      match op with
      | .upsertPosition .. => true
      | .readExposure quantity value =>
        (case.written ticker place).length = (case.targets ticker).length ∧
          exposure (case.targets ticker) ticker = some (quantity, value)
      | .other => false

/-- What the adapters write of a row. -/
def entry (p : Position) : (Text × Text × Text) × Int × Int := (p.key, p.quantity, p.currentPrice)

/-- What holds before the operation at a place: the table has rows of the ticker that the case
writes, each once, those that were written before among them, and the other rows of the table. -/
structure facts (case : Case) (ticker : Text) (others : List Position) (place : Nat)
    (table : List Position) : Prop where
  within : ∀ row ∈ ownRows table ticker, entry row ∈ (case.targets ticker).map entry
  unique : ((ownRows table ticker).map Position.key).Nodup
  written : ∀ p ∈ case.written ticker place, entry p ∈ (ownRows table ticker).map entry
  others : (table.filter fun p => p.ticker ≠ ticker) = others

variable {case : Case} {ticker : Text} {others : List Position} {table : List Position}

theorem key_refresh (p row : Position) : (refresh p row).key = row.key := by
  unfold refresh
  split <;> rfl

theorem ticker_refresh (p row : Position) : (refresh p row).ticker = row.ticker :=
  congrArg Prod.fst (key_refresh p row)

theorem entry_refresh (p row : Position) :
    entry (refresh p row) = if row.key = p.key then entry p else entry row := by
  unfold refresh
  split
  next same => exact congrArg (·, p.quantity, p.currentPrice) same
  next => rfl

theorem entry_eq {p row : Position} (same : entry row = entry p) : row.key = p.key :=
  congrArg Prod.fst same

theorem mem_ownRows {row : Position} :
    row ∈ ownRows table ticker ↔ row ∈ table ∧ row.ticker = ticker := by
  rw [ownRows, List.mem_filter, decide_eq_true_eq]

/-- A row of the ticker is updated, or added to its rows. -/
theorem ownRows_upsert {p : Position} (own : p.ticker = ticker) :
    ownRows (upsert table p) ticker =
      if (ownRows table ticker).any (fun row => row.key = p.key) then
        (ownRows table ticker).map (refresh p)
      else ownRows table ticker ++ [p] := by
  have conflict : (ownRows table ticker).any (fun row => row.key = p.key) =
      table.any fun row => row.key = p.key := by
    rw [Bool.eq_iff_iff, List.any_eq_true, List.any_eq_true]
    constructor
    · rintro ⟨row, member, same⟩
      exact ⟨row, (mem_ownRows.mp member).1, same⟩
    · rintro ⟨row, member, same⟩
      have ticker : row.ticker = p.ticker := congrArg Prod.fst (of_decide_eq_true same)
      exact ⟨row, mem_ownRows.mpr ⟨member, ticker.trans own⟩, same⟩
  rw [conflict, upsert]
  split
  · rw [ownRows, List.filter_map]
    congr 1
    refine List.filter_congr fun row _ => ?_
    rw [Function.comp_apply, ticker_refresh]
  · rw [ownRows, List.filter_append, List.filter_cons_of_pos (by simpa using own)]
    rfl

theorem others_upsert {p : Position} (own : p.ticker = ticker) :
    ((upsert table p).filter fun row => row.ticker ≠ ticker) =
      table.filter fun row => row.ticker ≠ ticker := by
  rw [upsert]
  split
  · have foreign : ∀ row ∈ table.filter fun row => decide (row.ticker ≠ ticker),
        refresh p row = row := by
      intro row member
      have other : row.ticker ≠ ticker := by simpa using (List.mem_filter.mp member).2
      refine if_neg fun same => other ?_
      exact (congrArg Prod.fst same).trans own
    rw [List.filter_map]
    have same : ((fun row => decide (row.ticker ≠ ticker)) ∘ refresh p) =
        fun row : Position => decide (row.ticker ≠ ticker) := by
      funext row
      rw [Function.comp_apply, ticker_refresh]
    rw [same, List.map_congr_left foreign, List.map_id']
  · rw [List.filter_append, List.filter_cons_of_neg (by simpa using own), List.filter_nil,
      List.append_nil]

theorem written_subset (case : Case) (ticker : Text) (place : Nat) :
    case.written ticker place ⊆ case.targets ticker :=
  ((List.take_sublist place case.ops).filterMap _).subset

theorem row_ticker {op : Op} {p : Position} (row : op.row ticker = some p) : p.ticker = ticker := by
  cases op with
  | upsertPosition quantity currentPrice accountScope strategyId =>
    obtain rfl := Option.some.inj row
    rfl
  | readExposure | other => cases row

theorem target_ticker {p : Position} (target : p ∈ case.targets ticker) : p.ticker = ticker := by
  obtain ⟨op, -, row⟩ := List.mem_filterMap.mp target
  exact row_ticker row

/-- Whatever is there stays, but for a row with the key of the one that is written. -/
private theorem kept_upsert {p q : Position} (own : p.ticker = ticker)
    (there : entry q ∈ (ownRows table ticker).map entry) (apart : q.key ≠ p.key) :
    entry q ∈ (ownRows (upsert table p) ticker).map entry := by
  obtain ⟨row, member, same⟩ := List.mem_map.mp there
  rw [ownRows_upsert own]
  split
  · rw [List.map_map]
    refine List.mem_map.mpr ⟨row, member, ?_⟩
    rw [Function.comp_apply, entry_refresh, if_neg (entry_eq same ▸ apart), same]
  · exact List.mem_map.mpr ⟨row, List.mem_append_left _ member, same⟩

private theorem mem_upsert {p : Position} (own : p.ticker = ticker) :
    entry p ∈ (ownRows (upsert table p) ticker).map entry := by
  rw [ownRows_upsert own]
  split
  next conflict =>
    obtain ⟨row, member, same⟩ := List.any_eq_true.mp conflict
    rw [List.map_map]
    refine List.mem_map.mpr ⟨row, member, ?_⟩
    rw [Function.comp_apply, entry_refresh, if_pos (of_decide_eq_true same)]
  next => exact List.mem_map_of_mem (List.mem_append_right _ (List.mem_singleton_self p))

/-- Writing a row of the case keeps the facts. -/
theorem facts.upsert (distinct : ((case.targets ticker).map Position.key).Nodup) {place : Nat}
    (holds : facts case ticker others place table) {p : Position}
    (target : p ∈ case.targets ticker) :
    facts case ticker others place (upsert table p) where
  within row member := by
    have own := target_ticker target
    rw [ownRows_upsert own] at member
    split at member
    · obtain ⟨old, there, rfl⟩ := List.mem_map.mp member
      rw [entry_refresh]
      split
      · exact List.mem_map_of_mem target
      · exact holds.within old there
    · rcases List.mem_append.mp member with old | new
      · exact holds.within row old
      · rw [List.mem_singleton.mp new]
        exact List.mem_map_of_mem target
  unique := by
    rw [ownRows_upsert (target_ticker target)]
    split
    · have keys : Position.key ∘ refresh p = Position.key := funext (key_refresh p)
      rw [List.map_map, keys]
      exact holds.unique
    next fresh =>
      rw [List.map_append, List.map_singleton, ← List.concat_eq_append, List.nodup_concat]
      refine ⟨fun member => fresh ?_, holds.unique⟩
      obtain ⟨row, there, same⟩ := List.mem_map.mp member
      exact List.any_eq_true.mpr ⟨row, there, decide_eq_true same⟩
  written q before := by
    by_cases same : q.key = p.key
    · obtain rfl := List.inj_on_of_nodup_map distinct (written_subset case ticker place before)
        target same
      exact mem_upsert (target_ticker target)
    · exact kept_upsert (target_ticker target) (holds.written q before) same
  others := (others_upsert (target_ticker target)).trans holds.others

theorem facts.mono {earlier place : Nat} (before : earlier ≤ place)
    (holds : facts case ticker others place table) : facts case ticker others earlier table where
  within := holds.within
  unique := holds.unique
  written p there := holds.written p
    (((List.take_sublist_take_left before).filterMap _).subset there)
  others := holds.others

/-! ### The sums -/

/-- All rows are there: the table has what the case writes, in some order. -/
theorem entries_perm (distinct : ((case.targets ticker).map Position.key).Nodup) {place : Nat}
    (holds : facts case ticker others place table)
    (all : (case.written ticker place).length = (case.targets ticker).length) :
    ((ownRows table ticker).map entry).Perm ((case.targets ticker).map entry) := by
  have whole : case.written ticker place = case.targets ticker :=
    ((List.take_sublist place case.ops).filterMap _).eq_of_length all
  have key : Position.key = Prod.fst ∘ entry := rfl
  have unique := holds.unique
  rw [key, ← List.map_map] at unique distinct
  rw [List.perm_ext_iff_of_nodup unique.of_map distinct.of_map]
  intro e
  constructor
  · intro member
    obtain ⟨row, there, rfl⟩ := List.mem_map.mp member
    exact holds.within row there
  · intro member
    obtain ⟨p, there, rfl⟩ := List.mem_map.mp member
    exact holds.written p (whole ▸ there)

theorem sumOfProducts_congr {rows rows' : List Position}
    (same : (rows.map Position.value).Perm (rows'.map Position.value)) :
    sumOfProducts rows = sumOfProducts rows' := by
  have fits (rows : List Position) : (∀ p ∈ rows, Fits 32 p.value) ↔
      ∀ v ∈ rows.map Position.value, Fits 32 v := List.forall_mem_map.symm
  ext v
  rw [Postgres.sumOfProducts_eq_some, Postgres.sumOfProducts_eq_some, same.sum_eq, fits rows,
    fits rows']
  simp only [same.mem_iff]

/-- The sums are those of the rows of the case. -/
theorem exposure_eq (positive : ∀ p ∈ case.targets ticker, 0 < p.quantity)
    (perm : ((ownRows table ticker).map entry).Perm ((case.targets ticker).map entry)) :
    exposure table ticker = exposure (case.targets ticker) ticker := by
  have quantities := perm.map fun e => e.2.1
  have values := perm.map fun e => e.2.1 * e.2.2
  rw [List.map_map, List.map_map] at quantities values
  have own : (table.filter fun p => p.ticker = ticker ∧ 0 < p.quantity) =
      ownRows table ticker := by
    refine List.filter_congr fun row member => ?_
    by_cases here : row.ticker = ticker
    · obtain ⟨p, target, same⟩ := List.mem_map.mp (perm.mem_iff.mp
        (List.mem_map_of_mem (f := entry) (mem_ownRows.mpr ⟨member, here⟩)))
      have held : row.quantity = p.quantity := (congrArg (fun e => e.2.1) same).symm
      simp [here, held, positive p target]
    · simp [here]
  have targets : ((case.targets ticker).filter fun p => p.ticker = ticker ∧ 0 < p.quantity) =
      case.targets ticker := by
    refine List.filter_eq_self.mpr fun p target => ?_
    exact decide_eq_true ⟨target_ticker target, positive p target⟩
  unfold exposure
  dsimp only
  rw [own, targets, sumOfProducts_congr values]
  exact congrArg (fun sum => (signed 64 sum).bind _) quantities.sum_eq

/-! ### Operations -/

theorem meet_served {fate : Fate} (served : unserved fate = false) (c : Statement) :
    meet fate c table = exec table c := by
  have fate : fate = .served := by simpa [unserved] using served
  rw [fate, meet]

theorem meet_unserved {fate : Fate} (failed : unserved fate = true) (c : Statement) :
    (meet fate c table).1 = none := by
  unfold meet
  split
  · cases failed
  · rfl
  · rfl
  · rfl

/-- The table is as it was, or as the statement leaves it. -/
theorem meet_table (fate : Fate) (c : Statement) :
    (meet fate c table).2 = table ∨ (meet fate c table).2 = (exec table c).2 := by
  unfold meet
  split
  · exact Or.inr rfl
  · exact Or.inl rfl
  · exact Or.inl rfl
  · exact Or.inr rfl

theorem written_succ {place : Nat} {op : Op} (here : case.ops[place]? = some op) :
    case.written ticker (place + 1) = case.written ticker place ++ (op.row ticker).toList := by
  rw [Case.written, List.take_add_one, here, List.filterMap_append]
  cases row : op.row ticker with
  | none => simp [Case.written, row]
  | some p => simp [Case.written, row]

/-- The workers of a consistent case withstand each other. -/
theorem serves (consistent : case.consistent ticker = true) (others : List Position)
    (unknown : Nat → Answer) (timer : Nat → Nat → Nat) :
    Serves meet (fun _ => True) unserved (facts case ticker others)
      (case.performs unknown ticker timer) case.config.operations.length := by
  obtain ⟨distinct, held, agree⟩ := of_decide_eq_true consistent
  refine ⟨fun place s holds => holds.mono (Nat.zero_le _), ?_⟩
  intro iteration place s errors inside here
  rw [← case.paired] at inside
  have ops := List.getElem?_eq_getElem inside
  have agrees := List.all_eq_true.mp agree (case.ops[place], place)
    (List.mem_zipIdx_iff_getElem?.mpr ops)
  have next : case.written ticker (place + 1) = _ := written_succ ops
  have member : case.ops[place] ∈ case.ops := List.getElem_mem inside
  rw [Case.performs, ops]
  cases op : case.ops[place] with
  | upsertPosition quantity currentPrice accountScope strategyId =>
    rw [op] at next member
    have target : fixtureRow ticker quantity currentPrice accountScope strategyId ∈
        case.targets ticker := List.mem_filterMap.mpr ⟨_, member, rfl⟩
    have fits := (held _ target).2
    refine withstands_ask here (fun _ holds => holds.mono (Nat.zero_le _)) ?_
      (fun fate table failed => by rw [meet_unserved failed]; rfl) ?_
    · intro fate table _ other holds
      rcases meet_table fate (.upsert (fixtureRow ticker quantity currentPrice accountScope
        strategyId)) with same | done
      · rw [same]
        exact holds
      · rw [done, exec, if_pos fits]
        exact holds.upsert distinct target
    · intro fate table _ served holds
      rw [meet_served served, exec, if_pos fits]
      have kept := holds.upsert distinct target
      refine ⟨rfl, kept.within, kept.unique, fun p there => ?_, kept.others⟩
      rw [next] at there
      rcases List.mem_append.mp there with before | now
      · exact kept.written p before
      · obtain rfl : fixtureRow ticker quantity currentPrice accountScope strategyId = p := by
          simpa [Op.row, eq_comm] using now
        exact mem_upsert rfl
  | readExposure totalQuantity totalMarketValue =>
    rw [op] at agrees next
    obtain ⟨all, expected⟩ : (case.written ticker place).length = (case.targets ticker).length ∧
        exposure (case.targets ticker) ticker = some (totalQuantity, totalMarketValue) := by
      simpa using agrees
    refine withstands_ask here (fun _ holds => holds.mono (Nat.zero_le _)) ?_
      (fun fate table failed => by rw [meet_unserved failed]; rfl) ?_
    · intro fate table _ other holds
      rcases meet_table fate (.exposure ticker) with same | same
      · rw [same]
        exact holds
      · rw [same]
        exact holds
    · intro fate table _ served holds
      rw [meet_served served]
      simp only [exec]
      rw [exposure_eq (fun p target => (held p target).1) (entries_perm distinct holds all),
        expected]
      refine ⟨by simp [readSums], holds.within, holds.unique, fun p there => ?_, holds.others⟩
      rw [next] at there
      exact holds.written p (by simpa [Op.row] using there)
  | other =>
    rw [op] at agrees
    cases agrees

/-! ### Before and after the workers -/

/-- A statement whose result is read was served. -/
private theorem serial_served {α : Type} {read : Option Result → Option α} {c : Statement}
    {s : List Fate × List Position} {x : α} (fails : read none = none)
    (got : read (serial c s).1 = some x) :
    serial c s = ((exec s.2 c).1, s.1.tail, (exec s.2 c).2) := by
  obtain ⟨fates, table⟩ := s
  cases fates with
  | nil =>
    rw [serial, fails] at got
    cases got
  | cons fate rest =>
    change read (meet fate c table).1 = some x at got
    have served : unserved fate = false := by
      by_contra failed
      rw [Bool.not_eq_false] at failed
      rw [meet_unserved failed, fails] at got
      cases got
    change ((meet fate c table).1, rest, (meet fate c table).2) = _
    rw [meet_served served]
    rfl

/-- No row of the ticker is there when the workers start, and the others are. -/
theorem prologue_facts {fates : List Fate}
    (opened : ((prologue ticker).run serial (fates, table)).1 = some ()) :
    facts case ticker (table.filter fun p => p.ticker ≠ ticker) 0
      ((prologue ticker).run serial (fates, table)).2.2 := by
  obtain ⟨done, deleted, rest⟩ := Prog.run_reading_some serial opened
  rw [prologue, rest, serial_served rfl deleted] at opened ⊢
  obtain ⟨done', selected, rest'⟩ := Prog.run_reading_some serial opened
  rw [rest', serial_served rfl selected]
  have none : ownRows (table.filter fun p => p.ticker ≠ ticker) ticker = [] := by
    simp [ownRows, List.filter_filter]
  change facts case ticker _ 0 (table.filter fun p => p.ticker ≠ ticker)
  refine ⟨?_, ?_, nofun, ?_⟩
  · rw [none]
    exact nofun
  · rw [none]
    exact List.nodup_nil
  · simp [List.filter_filter]

/-- What is reported in the end are rows of the ticker and their sums; its rows are gone then. -/
theorem epilogue_reports {checks : List Row → Bool} {fates : List Fate} {terminal : Terminal}
    (ended : ((epilogue checks ticker).run serial (fates, table)).1 = some terminal) :
    ((epilogue checks ticker).run serial (fates, table)).2.2 =
        (table.filter fun p => p.ticker ≠ ticker) ∧
      firstTwo ((sorted (ownRows table ticker)).map rowOf) =
        some (terminal.first, terminal.second) ∧
      exposure table ticker = some (terminal.totalQuantity, terminal.totalMarketValue) := by
  obtain ⟨rows, checked, rest⟩ := Prog.run_reading_some serial ended
  obtain ⟨listed, -⟩ := Option.filter_eq_some_iff.mp checked
  have served := serial_served rfl listed
  rw [epilogue, rest, served] at ended ⊢
  obtain ⟨sums, summed, rest'⟩ := Prog.run_reading_some serial ended
  have served' := serial_served rfl summed
  rw [rest', served'] at ended ⊢
  obtain ⟨done, deleted, rest''⟩ := Prog.run_reading_some serial ended
  rw [rest'', serial_served rfl deleted] at ended ⊢
  rw [served] at listed
  rw [served'] at summed
  obtain ⟨two, taken, rfl⟩ := Option.map_eq_some_iff.mp ended
  obtain rfl : (sorted (ownRows table ticker)).map rowOf = rows := Option.some.inj listed
  refine ⟨rfl, taken, ?_⟩
  change readSums ((exposure table ticker).map fun sums => .sums sums.1 sums.2) = _ at summed
  cases sum : exposure table ticker with
  | none =>
    rw [sum] at summed
    cases summed
  | some pair =>
    rw [sum] at summed
    exact summed

/-- The rows of a case whose strategies ascend are listed as the case has them. -/
theorem sorted_rows (ascending : ((case.targets ticker).map Position.strategyId).Pairwise (· < ·))
    (perm : ((ownRows table ticker).map entry).Perm ((case.targets ticker).map entry)) :
    (sorted (ownRows table ticker)).map rowOf = (case.targets ticker).map rowOf := by
  have rows : ((sorted (ownRows table ticker)).map rowOf).Perm
      ((case.targets ticker).map rowOf) := by
    have same := perm.map fun e => Row.mk e.1.2.2 e.2.1 e.2.2
    rw [List.map_map, List.map_map] at same
    exact ((List.perm_insertionSort _ _).map rowOf).trans same
  have distinct : ((case.targets ticker).map rowOf).Pairwise fun a b =>
      a.strategyId < b.strategyId := List.pairwise_map.mpr (List.pairwise_map.mp ascending)
  have ordered : ((sorted (ownRows table ticker)).map rowOf).Pairwise fun a b =>
      a.strategyId ≤ b.strategyId :=
    List.pairwise_map.mpr (List.pairwise_insertionSort _ _)
  refine rows.eq_of_pairwise (fun a b here there le ge => ?_) ordered
    (distinct.imp fun less => less.le)
  have unique : ((case.targets ticker).map rowOf |>.map Row.strategyId).Nodup :=
    (List.pairwise_map.mpr distinct).imp fun less => less.ne
  exact List.inj_on_of_nodup_map unique (rows.mem_iff.mp here) there (le_antisymm le ge)

/-! ### The case -/

/-- What is reported of a case: an error for each statement that failed, and for nothing else.
Without errors, all that is expected. The rows of other tickers are as they were, and no other is
left. -/
structure Faithful (case : Case) (ticker : Text) (service : Service) (table : List Position)
    (out : CaseRun × Terminal × List Position) : Prop where
  errors : out.1.errors = service.during.countP fun entry => unserved entry.2
  restored : out.2.2 = table.filter fun p => p.ticker ≠ ticker
  complete : out.1.errors = 0 → out.1.tokens = expectedTokens case.config ∧
    firstTwo ((case.targets ticker).map rowOf) = some (out.2.1.first, out.2.1.second) ∧
    exposure (case.targets ticker) ticker =
      some (out.2.1.totalQuantity, out.2.1.totalMarketValue)

section Cases

variable {total concurrency : Nat} {service : Service}
  (repeats : case.config.repeats = total) (iterates : 0 < total) (bound : total ≤ 1000000)
  (workers : 1 ≤ concurrency) (ascending : case.config.operations.Pairwise (· < ·))
  (consistent : case.consistent ticker = true)
  (strategies : ((case.targets ticker).map Position.strategyId).Pairwise (· < ·))

include repeats iterates consistent strategies

private theorem dbCase_faithful {ranges : List (Nat × Nat)} {checks : List Row → Bool}
    {values : Nat → Prog Statement (Option Result) (List Completion × Nat)}
    {collect : List (List Completion × Nat) → Option CaseRun}
    {out : CaseRun × Terminal × List Position}
    (reports : Reports values case.config.operations meet (fun _ => True) unserved
      (facts case ticker (table.filter fun p => p.ticker ≠ ticker)))
    (cover : ranges.flatMap (fun range => List.range' range.1 range.2) = List.range total)
    (errors : ∀ outs run, collect outs = some run → run.errors = (outs.map Prod.snd).sum)
    (tokens : ∀ outs run, collect outs = some run →
      (outs.flatMap Prod.fst).map Prod.fst = tokensOf case.config.operations (List.range total) →
        run.tokens = tokensOf case.config.operations (List.range total))
    (ran : dbCase ticker service (workersOn values ranges) (epilogue checks ticker) collect table =
      some out) :
    Faithful case ticker service table out := by
  unfold dbCase at ran
  dsimp only at ran
  obtain ⟨⟨⟩, opened, ran⟩ := Option.bind_eq_some_iff.mp ran
  obtain ⟨⟨outs, last⟩, run, ran⟩ := Option.bind_eq_some_iff.mp ran
  obtain ⟨terminal, ended, ran⟩ := Option.bind_eq_some_iff.mp ran
  obtain ⟨caseRun, collected, ran⟩ := Option.bind_eq_some_iff.mp ran
  obtain rfl := Option.some.inj ran
  obtain ⟨counted, base, complete⟩ :=
    reports.workers cover run (fun _ _ => trivial) (prologue_facts opened)
  obtain ⟨left, taken, summed⟩ := epilogue_reports ended
  refine ⟨(errors outs caseRun collected).trans counted, left.trans base.others, fun none => ?_⟩
  obtain ⟨all, reached⟩ := complete ((errors outs caseRun collected).symm.trans none)
  obtain ⟨distinct, held, -⟩ := of_decide_eq_true consistent
  have written : case.written ticker case.config.operations.length = case.targets ticker := by
    rw [← case.paired, Case.written, List.take_length, Case.targets]
  have perm := entries_perm distinct (reached iterates) (congrArg List.length written)
  rw [sorted_rows strategies perm] at taken
  rw [exposure_eq (fun p target => (held p target).1) perm] at summed
  refine ⟨?_, taken, summed⟩
  rw [expectedTokens, repeats, Int.toNat_natCast]
  exact tokens outs caseRun collected all

include bound workers ascending

/-- In whichever order the server takes the statements of the workers, both adapters count an error
for each statement that fails and for nothing else: no worker ever sums up other rows than the ones
it expects. Without errors they complete every operation and report the rows of the case. The table
is left without a trace of it. -/
theorem workers_sum_what_all_wrote (timer : Nat → Nat → Nat) (table : List Position) :
    (∀ out, rustDbCase case concurrency ticker timer service table = some out →
        Faithful case ticker service table out) ∧
      ∀ appends out,
        pythonDbCase case concurrency ticker timer service appends table = some out →
          Faithful case ticker service table out := by
  obtain ⟨same, cover⟩ := ranges_partition total workers
  have serves := serves consistent (table.filter fun p => p.ticker ≠ ticker)
  constructor
  · intro out ran
    rw [rustDbCase, repeats, Int.toNat_natCast] at ran
    refine dbCase_faithful repeats iterates consistent strategies (serves _ timer).rust cover
      ?_ ?_ ran
    · rintro outs run ⟨⟩
      rfl
    · rintro outs run ⟨⟩ all
      exact rustCollect_tokens bound ascending all
  · intro appends out ran
    rw [pythonDbCase, repeats, Int.toNat_natCast, same] at ran
    exact dbCase_faithful repeats iterates consistent strategies (serves _ timer).python cover
      (fun outs run => pythonCollect_errors)
      (fun outs run collected all => pythonCollect_tokens bound ascending all collected) ran

end Cases

/-- The PostgreSQL case of the fixture, shortened to so many iterations. -/
def fixtureCase (repeats : Int) : Case where
  config := ⟨["d001", "d002", "d003"], repeats, .int 1, .int 5000, .null, .null⟩
  ops := [.upsertPosition 10 1000 "paper".toList "strategy-a".toList,
    .upsertPosition 20 1200 "paper".toList "strategy-b".toList, .readExposure 30 34000]
  paired := rfl

/-- Two workers, of which the second one starts before the first one reads. -/
def busyService : Service where
  before := [.served, .served]
  during := [(0, .served), (1, .served), (0, .served), (0, .served), (1, .served), (1, .served)]
  after := [.served, .served, .served]

/-- The rows and the sums of the fixture, whoever wrote last, in either adapter. -/
theorem busy_workers_sum_to_fixture :
    (∃ out, rustDbCase (fixtureCase 2) 2 (tickerOf "0a1b2c3d".toList) (fun _ _ => 5) busyService
        [] = some out ∧ out.1.errors = 0 ∧
      exposure ((fixtureCase 2).targets (tickerOf "0a1b2c3d".toList))
        (tickerOf "0a1b2c3d".toList) =
          some (out.2.1.totalQuantity, out.2.1.totalMarketValue)) ∧
    ∃ out, pythonDbCase (fixtureCase 2) 2 (tickerOf "0a1b2c3d".toList) (fun _ _ => 5) busyService
        [0, 1, 0, 0, 1, 1] [] = some out ∧ out.1.errors = 0 ∧
      exposure ((fixtureCase 2).targets (tickerOf "0a1b2c3d".toList))
        (tickerOf "0a1b2c3d".toList) =
          some (out.2.1.totalQuantity, out.2.1.totalMarketValue) := by
  have rust : (rustDbCase (fixtureCase 2) 2 (tickerOf "0a1b2c3d".toList) (fun _ _ => 5) busyService
      []).isSome = true := by decide +kernel
  have python : (pythonDbCase (fixtureCase 2) 2 (tickerOf "0a1b2c3d".toList) (fun _ _ => 5)
      busyService [0, 1, 0, 0, 1, 1] []).isSome = true := by decide +kernel
  obtain ⟨out, eq⟩ := Option.isSome_iff_exists.mp rust
  obtain ⟨out', eq'⟩ := Option.isSome_iff_exists.mp python
  have repeats : (fixtureCase 2).config.repeats = ((2 : Nat) : Int) := rfl
  have both := @workers_sum_what_all_wrote _ (tickerOf "0a1b2c3d".toList) _ 2 busyService repeats
    (by decide) (by decide) (by decide) (by decide) (by decide +kernel) (by decide +kernel)
    (fun _ _ => 5) []
  have faithful := both.1 out eq
  have faithful' := both.2 _ out' eq'
  exact ⟨⟨out, eq, faithful.errors, (faithful.complete faithful.errors).2.2⟩,
    out', eq', faithful'.errors, (faithful'.complete faithful'.errors).2.2⟩

end AlphaPipeline.Bench.ReadWrite
