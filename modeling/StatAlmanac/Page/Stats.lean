import StatAlmanac.Entity.Kind
import StatAlmanac.Formula.Label
import StatAlmanac.Page.Markup
import StatAlmanac.Table

/-!
The stat table of a page: for each stat of the kind all formulas behind its
labels, in the order of the text. A stat without a formula is not in the table.
-/

namespace StatAlmanac.Page

def statFormulas (k : Kind) (text : List Char) : Table (List Formula) :=
  Table.ofList <| k.labels.filterMap fun (stat, labels) =>
    match Formula.findAll text (labels.map String.toList) with
    | [] => none
    | forms => some (stat, forms)

end StatAlmanac.Page
