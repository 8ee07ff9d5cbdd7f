/-
This file reads filters from JSON trees.

A filter is an object. The arrays under its names `AND` and `OR` hold the filters of its two
branches, and every other entry is a constraint on the field of that name. The first entry that
does not fit decides the error, and so does the first filter within a branch.
-/

import DocQuery.Error.Basic
import DocQuery.Filter.Basic

namespace DocQuery.Filter

mutual

/-- The filter that a tree writes. -/
def ofJson : Json → Except Error Filter
  | .object entries => ofEntries Filter.empty entries
  | other => .error (Failure.other (.notFilter other))

/-- Adds the entries of an object to a filter. -/
def ofEntries (filter : Filter) : List (String × Json) → Except Error Filter
  | [] => .ok filter
  | (name, tree) :: rest =>
    if name = "AND" then
      match ofBranch name tree with
      | .error error => .error error
      | .ok filters => ofEntries { filter with all := filters } rest
    else if name = "OR" then
      match ofBranch name tree with
      | .error error => .error error
      | .ok filters => ofEntries { filter with any := filters } rest
    else ofEntries { filter with fields := filter.fields.insert name (Value.ofJson tree) } rest

/-- The filters of a branch, whose name an error mentions. -/
def ofBranch (name : String) : Json → Except Error (List Filter)
  | .array items => ofItems items
  | _ => .error (Failure.other (.notBranch name))

/-- The filters that the items of an array write. -/
def ofItems : List Json → Except Error (List Filter)
  | [] => .ok []
  | item :: rest =>
    match ofJson item with
    | .error error => .error error
    | .ok filter =>
      match ofItems rest with
      | .error error => .error error
      | .ok filters => .ok (filter :: filters)

end

end DocQuery.Filter
