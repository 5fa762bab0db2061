/-!
# The sample document

A document to begin with: five spokes and two entries, and comments that
explain the format.
-/

namespace RadarChart

/-- The lines of the sample document. -/
def sampleLines : List String :=
  [ "# Chart description: one 'key: value' per line.",
    "# Lines starting with '#' are comments and blank lines are ignored. Runs of",
    "# spaces inside a line are only for alignment, but indentation at the start",
    "# of a line matters: it continues the key of the line above.",
    "",
    "size: 400 x 400",
    "margin: 10",
    "background: white",
    "#interval background: white",
    "text color: black",
    "text size: 16",
    "stroke color: grey",
    "#interval stroke color: black",
    "main stroke width: 1",
    "entry stroke width: 2",
    "filled entries: yes",
    "",
    "# Set intervals to 'none' to leave out the interval rings.",
    "scale: 100",
    "intervals: 20",
    "#interval labels: E D C B A S",
    "#hide labels: no",
    "",
    "# Which way the chart points: 'first radius', 'first side' or 'last side'.",
    "top: first radius",
    "",
    "# One spoke per radius.",
    "radii: 5",
    "radius 1: Speed",
    "       2: Reliability",
    "       3: Comfort",
    "       4: Safety",
    "       5: Efficiency",
    "",
    "# Entries are drawn in order, so later ones cover earlier ones when filled.",
    "entries: 2",
    "entry 1  data: 90 60 45 75 40",
    "        color: #0000ff",
    "      2  data: 60 80 60 30 90",
    "        color: #ff8000" ]

def sampleDocument : String :=
  String.join (sampleLines.map (· ++ "\n"))

end RadarChart
