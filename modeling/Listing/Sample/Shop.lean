import Listing.Relational.Query

/-!
# A shop

A sample database: items in categories, with labels and with the lines of orders; and a bare table
of tags. Items and labels can be marked as deleted. `Shop.source` is a query on it by name.
-/

namespace Listing.Shop

/-! ## Entities -/

/-- A column of integers. -/
def integers (name : String) : Column := ⟨name, .integer⟩

/-- A column of texts. -/
def texts (name : String) : Column := ⟨name, .text⟩

/-- A column of moments. -/
def moments (name : String) : Column := ⟨name, .moment false⟩

/-- Categories, which form a tree. -/
def category : Entity where
  name := "Category"
  table := "categories"
  columns := [integers "id", texts "name", integers "parent_id"]
  key := ["id"]
  relations := [
    ⟨"items", "Item", "items", true, .columns "id" "category_id", [integers "id"]⟩,
    ⟨"parent", "Category", "categories", false, .columns "parent_id" "id", []⟩,
    ⟨"children", "Category", "categories", true, .columns "id" "parent_id", [integers "id"]⟩]

/-- Items. -/
def item : Entity where
  name := "Item"
  table := "items"
  columns := [integers "id", integers "category_id", texts "name", texts "slug",
    ⟨"price", .decimal⟩, ⟨"rating", .binary⟩, ⟨"active", .boolean⟩, integers "stock",
    ⟨"released", .date⟩, moments "created_at", moments "deleted_at"]
  key := ["id"]
  softDelete := some "deleted_at"
  relations := [
    ⟨"category", "Category", "categories", false, .columns "category_id" "id", []⟩,
    ⟨"labels", "Label", "labels", true, .through "item_labels" "id" "item_id" "label_id" "id",
      [integers "id"]⟩,
    ⟨"orderLines", "OrderLine", "order_lines", true, .columns "id" "item_id",
      [integers "position"]⟩]
  scopes := [("slug_by_number", .endsIn "slug" "-"), ("in_stock", .positive "stock"),
    ("noop", .nothing)]

/-- Labels. -/
def label : Entity where
  name := "Label"
  table := "labels"
  columns := [integers "id", texts "title", moments "removed_at"]
  key := ["id"]
  softDelete := some "removed_at"
  relations := [
    ⟨"items", "Item", "items", true, .through "item_labels" "id" "label_id" "item_id" "id",
      [integers "id"]⟩]

/-- The columns of the lines of orders. -/
def orderLineColumns : List Column :=
  [integers "item_id", integers "position", integers "qty", texts "note"]

/-- Lines of orders. -/
def orderLine : Entity where
  name := "OrderLine"
  table := "order_lines"
  columns := orderLineColumns
  key := ["item_id", "position"]
  relations := [⟨"item", "Item", "items", false, .columns "item_id" "id", []⟩]

/-- The table of tags. -/
def tags : Entity where
  name := "tags"
  table := "tags"
  columns := [integers "id", texts "name", integers "weight"]
  key := ["id"]
  mapped := false

/-- The table of the lines of orders. -/
def orderLines : Entity where
  name := "order_lines"
  table := "order_lines"
  columns := orderLineColumns
  key := ["item_id", "position"]
  mapped := false

/-! ## Contents -/

/-- A number with hundredths. -/
def cents (n : Int) : Value := .decimal (.finite (n < 0) n.natAbs (-2))

/-- A binary number of hundredths. -/
def real (n : Int) : Value := .binary (.ofScaled (n < 0) n.natAbs (-2))

/-- A date. -/
def day (year month day : Nat) : Value := .date ⟨year, month, day⟩

/-- A moment without an offset. -/
def moment (year month day hour minute second : Nat) (micro : Nat := 0) : Value :=
  .moment ⟨⟨year, month, day⟩, hour, minute, second, micro, none⟩

/-- A row of a table with columns of these names. -/
def row (e : Entity) (vs : List Value) : TableRow := (e.columns.map (·.name)).zip vs

/-- The rows of the categories. -/
def categoryRows : List TableRow := [
  row category [.int 1, .text "Books", .null],
  row category [.int 2, .text "Toys", .null],
  row category [.int 3, .text "Épicerie", .int 1],
  row category [.int 4, .text "50% off_sale", .int 1],
  row category [.int 5, .text "Empty", .int 2],
  row category [.int 6, .text "toys", .int 2],
  row category [.int 7, .text "Deep", .int 3]]

/-- The rows of the items. -/
def itemRows : List TableRow := [
  row item [.int 1, .int 1, .text "Item 1", .text "item-1", cents 1000, real 450, .bool true,
    .int 5, day 2024 1 1, moment 2024 1 1 12 0 0, .null],
  row item [.int 2, .int 1, .text "Item 2", .text "item-2", cents 2000, real 300, .bool false,
    .int 0, day 2024 1 31, moment 2024 1 2 0 0 0, .null],
  row item [.int 3, .int 1, .text "Item 3", .text "item-3", cents 3050, .null, .null,
    .null, .null, moment 2024 1 2 0 0 1, moment 2024 1 1 12 0 0],
  row item [.int 4, .int 2, .text "item 10", .text "item-10", .null, real 25, .bool true,
    .int 10, day 2023 12 31, moment 2023 12 31 23 59 59, .null],
  row item [.int 5, .int 2, .text "100% pure", .text "pure_100", cents 99, real (-150), .bool false,
    .int (-3), day 2024 2 29, moment 2024 2 29 6 30 0, .null],
  row item [.int 6, .int 2, .text "a_b", .text "a-b", cents 9999999999, real 500, .bool true,
    .int 7, day 2024 1 1, moment 2024 1 1 12 0 0, .null],
  row item [.int 7, .int 3, .text "Café ☕", .text "cafe", cents 250, real 450, .null,
    .int 1, .null, moment 2024 3 1 8 0 0, .null],
  row item [.int 8, .int 3, .text "CAFÉ", .text "cafe-2", cents 250, real 275, .bool true,
    .int 2, day 2022 5 5, moment 2024 3 1 8 0 0 500000, .null],
  row item [.int 9, .int 4, .text "back\\slash", .text "back-9", cents (-500), real 100,
    .bool false, .int 9, day 2024 1 15, moment 2024 4 1 0 0 0, .null],
  row item [.int 10, .int 4, .text "O'Brien; DROP", .text "obrien", cents 2000, real 350,
    .bool true, .null, day 2024 1 15, moment 2024 5 1 0 0 0, moment 2024 6 1 0 0 0],
  row item [.int 11, .int 6, .text "Item 11", .text "item-11", cents 11000, real 400, .bool true,
    .int 11, day 2024 7 4, moment 2024 7 4 9 15 30, .null],
  row item [.int 12, .int 6, .text "日本語", .text "nihongo", cents 1234, .null, .bool false,
    .int 4, day 2021 1 1, moment 2021 1 1 0 0 0, .null]]

/-- The rows of the labels. -/
def labelRows : List TableRow := [
  row label [.int 1, .text "red", .null],
  row label [.int 2, .text "Green", .null],
  row label [.int 3, .text "blue_ish", .null],
  row label [.int 4, .text "gone", moment 2024 1 1 0 0 0]]

/-- Which items have which labels. -/
def itemLabelRows : List TableRow :=
  [(1, 1), (1, 2), (2, 2), (3, 1), (4, 3), (4, 4), (6, 1), (6, 2), (6, 3), (8, 4), (11, 2)].map
    fun p => [("item_id", .int p.1), ("label_id", .int p.2)]

/-- The rows of the lines of orders. -/
def orderLineRows : List TableRow := [
  row orderLine [.int 1, .int 1, .int 3, .text "gift"],
  row orderLine [.int 1, .int 2, .int 1, .null],
  row orderLine [.int 2, .int 1, .int 10, .text "bulk"],
  row orderLine [.int 4, .int 1, .int 0, .text ""],
  row orderLine [.int 4, .int 2, .int 7, .text "gift"],
  row orderLine [.int 4, .int 3, .int 2, .text "Late"],
  row orderLine [.int 9, .int 1, .int 5, .null]]

/-- The rows of the tags. -/
def tagRows : List TableRow := [
  row tags [.int 1, .text "red", .int 3],
  row tags [.int 2, .text "green", .int 1],
  row tags [.int 3, .text "blue", .int 2],
  row tags [.int 4, .text "Red", .int 3],
  row tags [.int 5, .text "x_y%", .int 0]]

/-- The shop's database. -/
def database : Database where
  schema := [category, item, label, orderLine]
  content := [("categories", categoryRows), ("items", itemRows), ("labels", labelRows),
    ("item_labels", itemLabelRows), ("order_lines", orderLineRows), ("tags", tagRows)]

/-! ## Queries by name -/

/-- All rows of an entity of the shop. -/
def all (e : Entity) : Query := .of database e

/-- The items of the first category. -/
def itemsOfFirstCategory : Query :=
  (all item).filtered (.compare (integers "category_id") .equal (.integer 1))

/-- The items that cost more than five, the most expensive ones first. -/
def itemsByPrice : Query :=
  { (all item).filtered (.compare ⟨"price", .decimal⟩ .greater (.integer 5)) with
    sorting := [(⟨"price", .decimal⟩, true), (integers "id", false)] }

/-- The tags of weight two and more. -/
def heavyTags : Query :=
  (all tags).filtered (.compare (integers "weight") .atLeast (.integer 2))

/-- The names of the tags. -/
def tagNames : Query := { all tags with projection := [texts "name"] }

/-- What a name of the shop stands for: a query, or something that is no source of rows. -/
def source (name : String) : Except Error Query :=
  match name with
  | "Category" => .ok (all category)
  | "Item" => .ok (all item)
  | "Label" => .ok (all label)
  | "OrderLine" => .ok (all orderLine)
  | "tags" => .ok (all tags)
  | "table_order_lines" => .ok (all orderLines)
  | "select_items_cat1" => .ok itemsOfFirstCategory
  | "select_items_by_price" => .ok itemsByPrice
  | "select_tags_heavy" => .ok heavyTags
  | "select_tag_names" => .ok tagNames
  | "select_item_ids" => .error (.specification .entityRequired)
  | "select_two_tables" | "select_nothing" => .error (.specification .singleTargetRequired)
  | "object" => .error (.specification (.unsupportedSource "object"))
  | "string" => .error (.specification (.unsupportedSource "str"))
  | "plain_class" => .error (.specification (.unsupportedSource "type"))
  | _ => .error .noKey

end Listing.Shop
