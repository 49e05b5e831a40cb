import OpenctiLookup.Backends.Membership
import OpenctiLookup.Config

/-! `bootstrap.py`: load the membership set from OpenCTI, page by page. A page is
the `data` of a reply; the entry ceiling is applied while loading. -/
namespace OpenctiLookup
open Python

/-- The bootstrap queries: the reply to each count, and to the page after a
cursor. -/
structure BootstrapClient where
  countIndicators : Py Json
  countObservables : Py Json
  page : Json → Py Json

def pageRoot : MembershipSource → Str
  | .indicators => "indicators"
  | .observables => "stixCyberObservables"

variable (rt : Runtime) (settings : Settings)

/-- `_count` on its reply. -/
def countOf (root : Str) (data : Json) : Py ℤ := do
  let block := (← data.get root).orElse (.obj [])
  let info ← block.getD "pageInfo" (.obj [])
  rt.intOf ((← info.get "globalCount").orElse (.int 0))

def countIndicators (client : BootstrapClient) : Py ℤ := do
  countOf rt "indicators" (← client.countIndicators)

def countObservables (client : BootstrapClient) : Py ℤ := do
  countOf rt "stixCyberObservables" (← client.countObservables)

def nodeValues (node : Json) : Py (List Json) := do
  match settings.membershipSource with
  | .observables => pure [← node.get "observable_value"]
  | .indicators =>
      let linked := (← node.get "observables").orElse (.obj [])
      let edges ← ((← linked.get "edges").orElse (.arr [])).iter
      mapPy (fun o => do ((← o.get "node").orElse (.obj [])).get "observable_value") edges

/-- The innermost loop of `iter_values`, with the list `build_membership` gathers
and whether its ceiling is reached. -/
def loadValues (limit : Option ℕ) : List Json → List Str → Py (List Str × Bool)
  | [], values => .ok (values, false)
  | value :: rest, values =>
      if !value.truthy then loadValues limit rest values
      else
        match value with
        | .str raw => do
            let parsed ← settings.normalize rt raw
            if !parsed.lookupable then loadValues limit rest values
            else
              let values := values ++ [parsed.value]
              if limit.any (· ≤ values.length) then pure (values, true)
              else loadValues limit rest values
        | _ => .error (.raised .attributeError)

def loadEdges (limit : Option ℕ) : List Json → List Str → Py (List Str × Bool)
  | [], values => .ok (values, false)
  | edge :: rest, values => do
      let node := (← edge.get "node").orElse (.obj [])
      let (values, full) ← loadValues rt settings limit (← nodeValues settings node) values
      if full then pure (values, true) else loadEdges limit rest values

def nextCursor (block : Json) : Py (Option Json) := do
  let info := (← block.get "pageInfo").orElse (.obj [])
  if !(← info.get "hasNextPage").truthy then pure none
  else
    let cursor ← info.get "endCursor"
    pure (if cursor.truthy then some cursor else none)

inductive PageOutcome where
  | done (values : List Str) (truncated : Bool)
  | more (values : List Str) (cursor : Json)

/-- One turn of the page loop on the `data` of its reply. -/
def readPage (limit : Option ℕ) (data : Json) (values : List Str) : Py PageOutcome := do
  let block := (← data.get (pageRoot settings.membershipSource)).orElse (.obj [])
  let edges ← ((← block.get "edges").orElse (.arr [])).iter
  let (values, full) ← loadEdges rt settings limit edges values
  if full then pure (.done values true)
  else
    match ← nextCursor block with
    | none => pure (.done values false)
    | some cursor => pure (.more values cursor)

/-- `_iter_page` and the loops over it. OpenCTI may hand out cursors for ever. -/
def BootstrapClient.readPages (client : BootstrapClient) (limit : Option ℕ) (cursor : Json)
    (values : List Str) :
    Option (Py (List Str × Bool)) :=
  match client.page cursor >>= fun data => readPage rt settings limit data values with
  | .error fault => some (.error fault)
  | .ok (.done values truncated) => some (.ok (values, truncated))
  | .ok (.more values cursor) => client |>.readPages limit cursor values
partial_fixpoint

/-- Every value `iter_values` yields under a limit, and whether it was reached. -/
def iterValues (client : BootstrapClient) (limit : Option ℕ) : Py (List Str × Bool) :=
  (client.readPages rt settings limit .null []).getD (.error .diverges)

/-- What later steps read of the report of `build_membership`. -/
structure BootstrapReport where
  observables : ℤ
  valuesLoaded : ℕ
  uniquePacked : ℕ
  truncated : Bool
deriving DecidableEq

def buildMembership (client : BootstrapClient) (maxEntries : Option ℕ) (name : Option Str)
    (segments : Segments) : Py (MembershipSet × BootstrapReport × Segments) := do
  let _ ← countIndicators rt client
  let observables ← countObservables rt client
  let (values, truncated) ← iterValues rt settings client maxEntries
  let (membership, segments) ←
    MembershipSet.build rt values name settings.membershipOverlayMax maxEntries segments
  pure (membership, ⟨observables, values.length, membership.count, truncated⟩, segments)

variable {rt settings} in
theorem buildMembership_eq_ok {client : BootstrapClient} {maxEntries : Option ℕ}
    {name : Option Str} {segments segments' : Segments} {set : MembershipSet}
    {report : BootstrapReport}
    (h : buildMembership rt settings client maxEntries name segments =
      .ok (set, report, segments')) :
    ∃ values truncated, iterValues rt settings client maxEntries = .ok (values, truncated) ∧
      MembershipSet.build rt values name settings.membershipOverlayMax maxEntries segments =
        .ok (set, segments') := by
  unfold buildMembership at h
  obtain ⟨_, -, h⟩ := bind_eq_ok_iff.mp h
  obtain ⟨_, -, h⟩ := bind_eq_ok_iff.mp h
  obtain ⟨⟨values, truncated⟩, hvalues, h⟩ := bind_eq_ok_iff.mp h
  obtain ⟨⟨built, segments''⟩, hbuild, h⟩ := bind_eq_ok_iff.mp h
  cases h
  exact ⟨values, truncated, hvalues, hbuild⟩

/-- `budget_bytes // 8 or None`. -/
def maxEntriesOf (budgetBytes : ℕ) : Option ℕ :=
  if budgetBytes / itemSize = 0 then none else some (budgetBytes / itemSize)

end OpenctiLookup
