/-
This file holds the queries on one table, before anything is checked or written: which records
a select returns and in what shape, what an update assigns, and what a create stores.
-/

import DocQuery.Error.Basic
import DocQuery.Filter.Basic

namespace DocQuery

/-! ### Parts of queries -/

/-- Which fields a select returns. -/
inductive Projection where
  | all
  /-- Only these. -/
  | only (fields : List String)
  /-- All but these. -/
  | without (fields : List String)

namespace Projection

/-- The projection of a list of wishes: the wanted fields if any are wanted, since all others
are then left out anyway, else all but the unwanted ones. -/
def ofFlags (flags : List (String × Bool)) : Projection :=
  let wanted := (flags.filter fun flag => flag.2).map Prod.fst
  let unwanted := (flags.filter fun flag => !flag.2).map Prod.fst
  if !wanted.isEmpty then .only wanted
  else if !unwanted.isEmpty then .without unwanted
  else .all

/-- The fields that the projection mentions. -/
def fields : Projection → List String
  | .all => []
  | .only fields => fields
  | .without fields => fields

end Projection

/-- The direction in which records are sorted by a field. -/
inductive Direction where
  | ascending
  | descending
  deriving DecidableEq

namespace Direction

/-- The keyword of a direction. -/
def keyword : Direction → String
  | .ascending => "asc"
  | .descending => "desc"

/-- The direction of a keyword, in lower case or in upper case. -/
def read (text : String) : Except Error Direction :=
  if text = "asc" ∨ text = "ASC" then .ok .ascending
  else if text = "desc" ∨ text = "DESC" then .ok .descending
  else .error (Failure.other (.direction text))

end Direction

/-- What an update hands back of each record. -/
inductive Returning where
  | nothing
  | before
  | after
  | difference
  deriving DecidableEq

namespace Returning

/-- The keyword of what is handed back. -/
def keyword : Returning → String
  | .nothing => "NONE"
  | .before => "BEFORE"
  | .after => "AFTER"
  | .difference => "DIFF"

end Returning

/-- A span of time. -/
structure Duration where
  seconds : UInt64
  nanoseconds : Fin 1000000000
  deriving DecidableEq

namespace Duration

/-- The whole milliseconds of the span. -/
def milliseconds (span : Duration) : Nat :=
  span.seconds.toNat * 1000 + span.nanoseconds.val / 1000000

end Duration

/-- Hints for the execution of a statement. -/
structure Options where
  timeout : Option Duration
  parallel : Option Bool

namespace Options

/-- No hint at all. -/
def unset : Options := ⟨none, none⟩

instance : Inhabited Options := ⟨unset⟩

/-- Fills each hint that is not set from the defaults. -/
def orElse (options defaults : Options) : Options :=
  ⟨options.timeout.or defaults.timeout, options.parallel.or defaults.parallel⟩

/-- Whether parallel execution is asked for. -/
def isParallel (options : Options) : Bool :=
  options.parallel.getD false

end Options

/-! ### Queries -/

/-- A request for records. -/
structure Select where
  filter : Option Filter
  projection : Projection
  order : Dictionary Direction
  limit : Option UInt64
  offset : Option UInt64
  options : Options

namespace Select

/-- The select of all records in full. -/
def empty : Select :=
  ⟨none, .all, Dictionary.empty, none, none, Options.unset⟩

instance : Inhabited Select := ⟨empty⟩

end Select

/-- New values for fields of all records that fit a filter. -/
structure Update where
  assignments : Dictionary Value
  filter : Option Filter
  returning : Option Returning
  options : Options

namespace Update

/-- The update that assigns nothing. -/
def empty : Update :=
  ⟨Dictionary.empty, none, none, Options.unset⟩

instance : Inhabited Update := ⟨empty⟩

end Update

/-- A new record, with a key unless the database is to choose one. -/
structure Create where
  key : Option RecordKey
  content : Dictionary Value

namespace Create

/-- The record without content. -/
def empty : Create :=
  ⟨none, Dictionary.empty⟩

instance : Inhabited Create := ⟨empty⟩

end Create

end DocQuery
