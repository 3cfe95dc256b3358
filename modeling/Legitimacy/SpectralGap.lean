import Legitimacy.GraphChecks

namespace Legitimacy

namespace Spectral

abbrev Matrix : Type := List (List Float)

def entry (matrix : Matrix) (row col : Nat) : Float := (((matrix[row]?).getD [])[col]?).getD 0

def setEntry (matrix : Matrix) (row col : Nat) (value : Float) : Matrix := matrix.modify row fun values => values.set col value

/-- `f64::max`, which prefers a number to a NaN. -/
def maxFloat (left right : Float) : Float :=
  if left.isNaN then right
  else if right.isNaN then left
  else if left < right then right
  else left

def minFloat (left right : Float) : Float :=
  if left.isNaN then right
  else if right.isNaN then left
  else if right < left then right
  else left

def adjacencyMatrix (graph : GovernanceGraph) : Matrix :=
  let nodeIds := graph.nodes.keys
  let zero : Matrix := nodeIds.map fun _ => nodeIds.map fun _ => 0
  graph.edges.foldl (fun adjacency edge =>
    match nodeIds.findIdx? (· = edge.fromNode), nodeIds.findIdx? (· = edge.toNode) with
    | some source, some target =>
      let adjacency := setEntry adjacency source target (entry adjacency source target + 1)
      setEntry adjacency target source (entry adjacency target source + 1)
    | _, _ => adjacency) zero

def laplacianMatrix (graph : GovernanceGraph) : Matrix :=
  (adjacencyMatrix graph).zipIdx.map fun (values, row) =>
    values.zipIdx.map fun (value, col) => if row = col then values.foldl (· + ·) 0 else -value

/-- The position above the diagonal of the largest absolute value, the first of equals, and that value. -/
def pivot (matrix : Matrix) : Option (Nat × Nat) × Float :=
  matrix.zipIdx.foldl (fun found (values, row) =>
    values.zipIdx.foldl (fun (place, maxValue) (value, col) =>
      if row < col ∧ maxValue < value.abs then (some (row, col), value.abs) else (place, maxValue)) found) (none, 0)

def rotate (matrix : Matrix) (p q : Nat) : Matrix :=
  let theta := (entry matrix q q - entry matrix p p) / (2 * entry matrix p q)
  let t := if 0 ≤ theta then 1 / (theta + (1 + theta * theta).sqrt) else -1 / (-theta + (1 + theta * theta).sqrt)
  let c := 1 / (1 + t * t).sqrt
  let s := t * c
  let rotated := (List.range matrix.length).foldl (fun (matrix : Matrix) index =>
    if index = p ∨ index = q then matrix
    else
      let aip := entry matrix index p
      let aiq := entry matrix index q
      let matrix := setEntry matrix index p (c * aip - s * aiq)
      let matrix := setEntry matrix p index (entry matrix index p)
      let matrix := setEntry matrix index q (c * aiq + s * aip)
      setEntry matrix q index (entry matrix index q)) matrix
  let app := entry rotated p p
  let aqq := entry rotated q q
  let apq := entry rotated p q
  let rotated := setEntry rotated p p (c * c * app - 2 * s * c * apq + s * s * aqq)
  let rotated := setEntry rotated q q (s * s * app + 2 * s * c * apq + c * c * aqq)
  setEntry (setEntry rotated p q 0) q p 0

def jacobiLoop : Nat → Matrix → Matrix
  | 0, matrix => matrix
  | rounds + 1, matrix =>
    match pivot matrix with
    | (none, _) => matrix
    | (some (p, q), maxValue) => if maxValue ≤ 1e-12 then matrix else jacobiLoop rounds (rotate matrix p q)

def jacobiEigenvalues (matrix : Matrix) : List Float :=
  let final := jacobiLoop (max (matrix.length * matrix.length * 16) 16) matrix
  (List.range matrix.length).map fun index => entry final index index

def spectralGap (graph : GovernanceGraph) : Float :=
  if graph.nodes.size < 2 then 0
  else
    let eigenvalues := (jacobiEigenvalues (laplacianMatrix graph)).insertionSort fun left right => totalKey left ≤ totalKey right
    (eigenvalues.find? fun value => epsilon < value).getD 0

def maxDegree (graph : GovernanceGraph) : Float :=
  (laplacianMatrix graph).zipIdx.foldl (fun degree (values, index) => maxFloat degree ((values[index]?).getD 0)) 0

def signalRange (claims : List GovernanceClaim) : Float :=
  let minStrength := claims.foldl (fun least claim => minFloat least claim.strength) (1 / 0)
  let maxStrength := claims.foldl (fun greatest claim => maxFloat greatest claim.strength) (-1 / 0)
  if ¬minStrength.isFinite ∨ ¬maxStrength.isFinite then 0 else maxStrength - minStrength

def consistencyVulnerabilityBound (graph : GovernanceGraph) (claims : List GovernanceClaim) : Float :=
  let gap := spectralGap graph
  if epsilon < gap then signalRange claims * maxDegree graph / gap else signalRange claims

/-- `(0.5 / bound).clamp(0.0, 1.0)` of the vulnerability bound. -/
def localizabilityBound (graph : GovernanceGraph) (claims : List GovernanceClaim) : Float :=
  let bound := consistencyVulnerabilityBound graph claims
  if bound ≤ epsilon then 1
  else if 0.5 / bound < 0 then 0
  else if 1 < 0.5 / bound then 1
  else 0.5 / bound

end Spectral

end Legitimacy
