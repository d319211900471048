import Mathlib.Logic.Relation
/-!
# The tree view of the network

`web/src/components/network-hierarchy/network-hierarchy.model.ts`. The pages loaded so far are one
list of nodes, each with the key of its parent. The model indexes them, and the view lists them
from the roots downward, below those that are expanded.
-/

namespace Refearn.Web

/-- A node of the administrator's or of the member's hierarchy. -/
inductive NetworkHierarchyNode where
  | member (membershipId : String) (parentMembershipId : Option String) (canExpand : Bool)
  | adminCluster (clusterRef : String) (parentMembershipId : Option String) (canExpand : Bool)
  | memberCluster (clusterRef parentRef : String) (canExpand : Bool)
  | self (nodeRef : String) (directCount : Int)
  | direct (nodeRef parentRef : String) (canExpand : Bool)
  | anonymous (nodeRef parentRef : String) (localTier : Nat) (canExpand : Bool)
  deriving DecidableEq

def hierarchyNodeKey : NetworkHierarchyNode → String
  | .member membershipId _ _ => membershipId
  | .adminCluster clusterRef _ _ => "cluster:" ++ clusterRef
  | .memberCluster clusterRef _ _ => "cluster:" ++ clusterRef
  | .self nodeRef _ => nodeRef
  | .direct nodeRef _ _ => nodeRef
  | .anonymous nodeRef _ _ _ => nodeRef

def hierarchyParentKey : NetworkHierarchyNode → Option String
  | .member _ parentMembershipId _ => parentMembershipId
  | .adminCluster _ parentMembershipId _ => parentMembershipId
  | .memberCluster _ parentRef _ => some parentRef
  | .self _ _ => none
  | .direct _ parentRef _ => some parentRef
  | .anonymous _ parentRef _ _ => some parentRef

def isTierThreeTerminal : NetworkHierarchyNode → Bool
  | .anonymous _ _ localTier _ => localTier = 3
  | _ => false

def isHierarchyNodeExpandable (node : NetworkHierarchyNode) (hasLoadedChildren : Bool) : Bool :=
  if isTierThreeTerminal node then false
  else
    match node with
    | .self _ directCount => hasLoadedChildren || decide (0 < directCount)
    | .member _ _ canExpand => canExpand
    | .adminCluster _ _ canExpand => canExpand
    | .memberCluster _ _ canExpand => canExpand
    | .direct _ _ canExpand => canExpand
    | .anonymous _ _ _ canExpand => canExpand

inductive HierarchyError where
  | typeError (message : String)
  | outOfFuel
  deriving DecidableEq

/-! ## The model -/

/-- The maps of the model, each with its entries in the order of their insertion. -/
structure NetworkHierarchyModel where
  nodesByKey : List (String × NetworkHierarchyNode)
  childrenByParent : List (Option String × List String)
  parentByKey : List (String × Option String)
  rootKeys : List String
  deriving DecidableEq

abbrev NodeIndex := List (String × NetworkHierarchyNode) × List (String × Option String)

def indexNode (index : NodeIndex) (node : NetworkHierarchyNode) :
    Except HierarchyError NodeIndex :=
  let key := hierarchyNodeKey node
  if (index.1.lookup key).isSome then
    .error (.typeError ("Duplicate hierarchy node key: " ++ key))
  else .ok (index.1 ++ [(key, node)], index.2 ++ [(key, hierarchyParentKey node)])

/-- The node that a parent key names; the empty key is falsy and names none. -/
def parentNode (nodesByKey : List (String × NetworkHierarchyNode)) (parentKey : Option String) :
    Option NetworkHierarchyNode :=
  (parentKey.filter (· ≠ "")).bind fun key => nodesByKey.lookup key

def normalizedParent (nodesByKey : List (String × NetworkHierarchyNode))
    (parentKey : Option String) : Option String :=
  parentKey.filter fun key => key ≠ "" && (nodesByKey.lookup key).isSome

def pushChild (parentKey : Option String) (key : String) :
    List (Option String × List String) → List (Option String × List String)
  | [] => [(parentKey, [key])]
  | entry :: rest =>
      if entry.1 = parentKey then (entry.1, entry.2 ++ [key]) :: rest
      else entry :: pushChild parentKey key rest

def linkNode (nodesByKey : List (String × NetworkHierarchyNode))
    (childrenByParent : List (Option String × List String)) (entry : String × Option String) :
    Except HierarchyError (List (Option String × List String)) :=
  if (parentNode nodesByKey entry.2).any isTierThreeTerminal then
    .error (.typeError "Tier 3 member nodes are terminal and cannot own children")
  else .ok (pushChild (normalizedParent nodesByKey entry.2) entry.1 childrenByParent)

def buildNetworkHierarchyModel (nodes : List NetworkHierarchyNode) :
    Except HierarchyError NetworkHierarchyModel := do
  let index ← nodes.foldlM indexNode ([], [])
  let childrenByParent ← index.2.foldlM (linkNode index.1) []
  .ok {
    nodesByKey := index.1
    childrenByParent := childrenByParent
    parentByKey := index.2
    rootKeys := (childrenByParent.lookup none).getD [] }

/-! ## The view -/

structure VisibleHierarchyRow where
  key : String
  node : NetworkHierarchyNode
  depth : Nat
  parentKey : Option String
  hasLoadedChildren : Bool
  expandable : Bool
  expanded : Bool

structure Traversal where
  rows : List VisibleHierarchyRow
  visited : List String

def childrenOf (model : NetworkHierarchyModel) (key : String) : List String :=
  (model.childrenByParent.lookup (some key)).getD []

def visibleRow (model : NetworkHierarchyModel) (expandedKeys : List String) (key : String)
    (node : NetworkHierarchyNode) (depth : Nat) (parentKey : Option String) :
    VisibleHierarchyRow :=
  let hasLoadedChildren := !(childrenOf model key).isEmpty
  let expandable := isHierarchyNodeExpandable node hasLoadedChildren
  { key := key
    node := node
    depth := depth
    parentKey := parentKey
    hasLoadedChildren := hasLoadedChildren
    expandable := expandable
    expanded := expandable && expandedKeys.contains key }

def visit (model : NetworkHierarchyModel) (expandedKeys : List String) :
    Nat → Nat → Option String → Traversal → String → Except HierarchyError Traversal
  | 0, _, _, _, _ => .error .outOfFuel
  | fuel + 1, depth, parentKey, seen, key =>
      if seen.visited.contains key then
        .error (.typeError ("Hierarchy cycle detected at " ++ key))
      else
        match model.nodesByKey.lookup key with
        | none => .ok { seen with visited := seen.visited ++ [key] }
        | some node =>
            let row := visibleRow model expandedKeys key node depth parentKey
            let seen := ⟨seen.rows ++ [row], seen.visited ++ [key]⟩
            if row.expanded then
              (childrenOf model key).foldlM (visit model expandedKeys fuel (depth + 1) (some key))
                seen
            else .ok seen

def flattenVisibleHierarchy (model : NetworkHierarchyModel) (expandedKeys : List String) :
    Except HierarchyError (List VisibleHierarchyRow) := do
  let seen ← model.rootKeys.foldlM
    (visit model expandedKeys model.nodesByKey.length 0 none) ⟨[], []⟩
  .ok seen.rows

/-! ## What the view owes the list -/

/-- The parent key of a node names another node of the list. -/
def RefersTo (nodes : List NetworkHierarchyNode) (node parent : NetworkHierarchyNode) : Prop :=
  node ∈ nodes ∧ parent ∈ nodes ∧ hierarchyParentKey node = some (hierarchyNodeKey parent)

/-- A list that is accepted and listed with every key expanded is listed whole, each node once,
after its parent and one deeper. -/
def LosesNoNode (nodes : List NetworkHierarchyNode) : Prop :=
  ∀ model rows, buildNetworkHierarchyModel nodes = .ok model →
    flattenVisibleHierarchy model (nodes.map hierarchyNodeKey) = .ok rows →
    (rows.map VisibleHierarchyRow.node).Perm nodes ∧
      ∀ front row back, rows = front ++ row :: back →
        ∀ parent, RefersTo nodes row.node parent →
          ∃ above ∈ front, above.node = parent ∧ row.depth = above.depth + 1

/-- The lists that are refused: a key repeated, or a child of a node of the last visible tier. -/
def Refused (nodes : List NetworkHierarchyNode) : Prop :=
  ¬(nodes.map hierarchyNodeKey).Nodup ∨
    ∃ node parent, RefersTo nodes node parent ∧ hierarchyNodeKey parent ≠ "" ∧
      isTierThreeTerminal parent = true

/-- No node is above itself. -/
def FreeOfCircles (nodes : List NetworkHierarchyNode) : Prop :=
  ∀ node, ¬Relation.TransGen (RefersTo nodes) node node

/-- Whatever has a loaded child can be opened, and has a key. -/
def ParentsOpen (nodes : List NetworkHierarchyNode) : Prop :=
  ∀ node parent, RefersTo nodes node parent →
    hierarchyNodeKey parent ≠ "" ∧ isHierarchyNodeExpandable parent true = true

end Refearn.Web
