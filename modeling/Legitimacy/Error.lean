import Legitimacy.Standard

namespace Legitimacy

/-- The errors of the modelled operations; errors of foreign crates are kept as their texts. -/
inductive LegitimacyError where
  | missingAllocationShare (claimantId context : String)
  | invalidPositiveStrength (value : Float)
  | invalidEstateTotal (value : Float)
  | invalidClaimStrength (claimantId : String) (strength : Float)
  | invalidClaimantId (claimantId : String)
  | duplicateClaimantId (claimantId : String)
  | allocationMissingClaimant (claimantId : String)
  | invalidAllocationValue (claimantId : String) (value : Float)
  | allocationUnknownClaimant (claimantId : String)
  | allocationExceedsEstate (totalAllocated estateTotal : Float)
  | invalidPolicy (context message : String)
  | invalidNodeId (value : String)
  | duplicateNodeId (nodeId : String)
  | invalidEdgeReference (nodeId : String)
  | unsupportedNodeType (nodeId nodeType : String)
  | invalidGovernanceStrength (claimantId : String) (strength : Float)
  | invalidGate (gate message : String)
  | invalidRegex (pattern reason : String)
  | conflictingClaimFeed (nodeId claimantId : String)
  | noEntryNodes
  | cycleError (cycle : List String)
  | sqlite (context reason : String)
  | systemClock (reason : String)
  | io (context : String)
  | json (context : String)
  | invalidInput (message : String)

end Legitimacy
