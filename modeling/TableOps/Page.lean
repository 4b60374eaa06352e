import TableOps.Check

/-!
# Pages

A page of a list: its number, counted from 1, and the number of rows on a page.

* `Page` — a page; both numbers are positive.
* `Page.offset` — the number of rows before the page.
-/

namespace TableOps

/-- A page of a list, counted from 1. -/
structure Page where
  index : Nat
  size : Nat
  index_pos : 0 < index
  size_pos : 0 < size
  deriving DecidableEq, Repr

namespace Page

/-- The number of rows on a page unless another is asked for. -/
def defaultSize : Nat := 20

theorem defaultSize_pos : 0 < defaultSize := by decide

/-- The number of rows on the pages before. -/
def offset (p : Page) : Nat :=
  (p.index - 1) * p.size

/-- A page from the members `page_index` and `page_size`, also named `pageIdx` and `pageSize`. -/
def ofMembers (members : Entries Value) : Check Page :=
  (fun index size => ⟨index.1, size.1, index.2, size.2⟩)
    <$> Check.withDefault ["pageIdx", "page_index"] ⟨1, by decide⟩ Check.positive members
    <*> Check.withDefault ["pageSize", "page_size"] ⟨defaultSize, by decide⟩ Check.positive members

/-- The members that a page is read from. -/
def members (p : Page) : Entries Value :=
  [("page_index", .int p.index), ("page_size", .int p.size)]

/-- A page from its plain form, checked or not. -/
def ofValue : Value → Check Page
  | .checked .page (.map members) => ofMembers members
  | v => Check.instanceOf ofMembers v

end Page

end TableOps
