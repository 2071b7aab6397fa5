import TetrisMachine.Text.Cluster.Break

/-!
# Clusters of a text

* `clusters`: the clusters of a text.
* `flatten_clusters`: they are the text again.
-/

namespace TetrisMachine.Text

/-- The clusters of a text that goes on after part of a cluster, which is given
backwards. -/
def clustersFrom (cluster : List Char) (e : ClusterEnd) : List Char → List (List Char)
  | [] => [cluster.reverse]
  | c :: cs =>
    let k := BreakClass.of c
    if e.joins k then clustersFrom (c :: cluster) (e.push k) cs
    else cluster.reverse :: clustersFrom [c] (.of k) cs

/-- The clusters of a text, in its order. -/
def clusters : List Char → List (List Char)
  | [] => []
  | c :: cs => clustersFrom [c] (.of (.of c)) cs

theorem flatten_clustersFrom (cluster : List Char) (e : ClusterEnd) (cs : List Char) :
    (clustersFrom cluster e cs).flatten = cluster.reverse ++ cs := by
  induction cs generalizing cluster e with
  | nil => simp [clustersFrom]
  | cons c cs ih =>
    simp only [clustersFrom]
    split <;> simp [ih]

/-- **Dividing a text into clusters loses nothing.** -/
theorem flatten_clusters (cs : List Char) : (clusters cs).flatten = cs := by
  cases cs with
  | nil => rfl
  | cons c cs => simp [clusters, flatten_clustersFrom]

end TetrisMachine.Text
