import StatAlmanac.Text.Blank
import StatAlmanac.Text.Case

/-!
The kinds of entities that have a page, the form of their pages' addresses, and
for each kind the stats that are looked for, with the labels they go by.
-/

namespace StatAlmanac

inductive Kind where
  | champion
  | item
  | rune
  deriving DecidableEq, Repr

namespace Kind

def name : Kind → String
  | .champion => "champion"
  | .item => "item"
  | .rune => "rune"

def ofName? : String → Option Kind
  | "champion" => some .champion
  | "item" => some .item
  | "rune" => some .rune
  | _ => none

theorem ofName?_name (k : Kind) : ofName? k.name = some k := by
  cases k <;> rfl

/-- A kind as people write it: singular or plural, in any case, blanks around it. An unknown kind is
given back as it was compared. -/
def read (s : String) : Except String Kind :=
  match String.ofList (Text.lowerAscii (Text.trim s.toList)) with
  | "champion" | "champions" => .ok .champion
  | "item" | "items" => .ok .item
  | "rune" | "runes" => .ok .rune
  | other => .error s!"unknown entity kind '{other}'"

def path (k : Kind) (identity : String) : String :=
  match k with
  | .champion => identity ++ "/LoL"
  | .item | .rune => identity

def labels : Kind → List (String × List String)
  | .champion => [
      ("hp", ["Health", "HP"]),
      ("hp_regen", ["Health regen", "HP5", "Health regeneration"]),
      ("mana", ["Mana", "MP"]),
      ("mana_regen", ["Mana regen", "MP5", "Mana regeneration"]),
      ("armor", ["Armor"]),
      ("magic_resist", ["Magic resist", "Magic resistance", "MR"]),
      ("attack_damage", ["Attack damage", "AD"]),
      ("attack_speed", ["Attack speed", "Base AS"]),
      ("attack_range", ["Attack range", "Range"]),
      ("move_speed", ["Move speed", "Movement speed", "MS"])]
  | .item => [
      ("hp", ["Health", "HP"]),
      ("mana", ["Mana"]),
      ("armor", ["Armor"]),
      ("magic_resist", ["Magic resist", "Magic resistance"]),
      ("attack_damage", ["Attack damage"]),
      ("ability_power", ["Ability power", "AP"]),
      ("attack_speed", ["Attack speed"]),
      ("critical_strike_chance", ["Critical strike chance", "Crit chance"]),
      ("ability_haste", ["Ability haste"]),
      ("lethality", ["Lethality"]),
      ("life_steal", ["Life steal"]),
      ("move_speed", ["Move speed", "Movement speed"]),
      ("cost", ["Cost", "Total cost"])]
  | .rune => [
      ("damage", ["Damage", "Bonus damage"]),
      ("shield", ["Shield", "Shield strength"]),
      ("heal", ["Heal", "Healing"]),
      ("adaptive_force", ["Adaptive force"]),
      ("cooldown", ["Cooldown"]),
      ("duration", ["Duration"])]

def labelsOf? (k : Kind) (stat : String) : Option (List String) := k.labels.lookup stat

end Kind

end StatAlmanac
