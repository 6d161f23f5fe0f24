import PersonRegistry.Settings.Layers

/-! Tables of settings that differ at one path only. A setting that is laid over a table makes such a
difference, and what is laid over both tables elsewhere keeps it.
-/

namespace PersonRegistry.Settings

namespace Setting

theorem lookup_cons (name other : String) (setting : Setting) (rest : Entries)
    : List.lookup other ((name, setting) :: rest)
      = if other = name then some setting else rest.lookup other := by
  rw [List.lookup_cons]
  split
  next same => rw [if_pos (beq_iff_eq.mp same)]
  next unlike => rw [if_neg (beq_eq_false_iff_ne.mp unlike)]

/-- A setting that is put in its place stands there, and all others stay. By induction on the entries. -/
theorem lookup_put (name other : String) (setting : Setting) (held : Entries)
    : (put name setting held).lookup other = if other = name then some setting else held.lookup other := by
  induction held with
  | nil => rw [put, lookup_cons]
  | cons entry rest ih =>
      obtain ⟨first, kept⟩ := entry
      rw [put]
      split
      next same =>
        subst same
        rw [lookup_cons, lookup_cons]
        split <;> rfl
      next unlike =>
        rw [lookup_cons, lookup_cons, ih]
        split
        next same => rw [if_neg fun here => unlike (same.symm.trans here)]
        next => rfl

/-- What stands at a name after a setting was laid over what is behind it on a path. -/
def laid : List String → Setting → Option Setting → Setting
  | [], setting, held => overlay held setting
  | path, setting, held => .table (overlayAt path setting (entriesOf held))

/-- A setting is laid over the place that its path starts at, and all others stay. -/
theorem lookup_overlayAt (first : String) (path : List String) (setting : Setting) (held : Entries)
    (name : String)
    : (overlayAt (first :: path) setting held).lookup name
      = if name = Text.lowercase first then some (laid path setting (held.lookup name))
        else held.lookup name := by
  have placed : overlayAt (first :: path) setting held
      = put (Text.lowercase first) (laid path setting (held.lookup (Text.lowercase first))) held := by
    cases path with
    | nil => rw [overlayAt, overlayAll, overlayAll, laid]
    | cons next path =>
        rw [overlayAt, laid]
        all_goals simp
  rw [placed, lookup_put]
  split
  next same => rw [same]
  next => rfl

/-- What stands at a name afterwards depends on nothing but what stood there. -/
theorem lookup_overlayAt_congr (path : List String) (setting : Setting) {plain changed : Entries}
    {name : String} (same : changed.lookup name = plain.lookup name)
    : (overlayAt path setting changed).lookup name = (overlayAt path setting plain).lookup name := by
  cases path with
  | nil => exact same
  | cons first path => rw [lookup_overlayAt, lookup_overlayAt, same]

def isTable : Setting → Bool
  | .table _ => true
  | _ => false

theorem overlay_of_not_table {setting : Setting} (single : setting.isTable = false) (held : Option Setting)
    : overlay held setting = setting := by
  cases setting with
  | table entries => cases single
  | _ => rw [overlay]; simp

end Setting

open Setting (entriesOf laid overlayAt)

/-- Two tables are the same but for a setting at a path, which is in the second one, with tables on the way. -/
inductive Differ (setting : Setting) : List String → Entries → Entries → Prop
  | here {name : String} {plain changed : Entries}
      (others : ∀ other, other ≠ name → changed.lookup other = plain.lookup other)
      (there : changed.lookup name = some setting) : Differ setting [name] plain changed
  | inside {name : String} {path : List String} {plain changed inner : Entries}
      (others : ∀ other, other ≠ name → changed.lookup other = plain.lookup other)
      (there : changed.lookup name = some (.table inner))
      (differ : Differ setting path (entriesOf (plain.lookup name)) inner)
      : Differ setting (name :: path) plain changed

/-- A path leads to no place on another one or behind it, which is in small letters. -/
def Apart (other path : List String) : Prop :=
  ¬other.map Text.lowercase <+: path ∧ ¬path <+: other.map Text.lowercase

instance (other path : List String) : Decidable (Apart other path) :=
  inferInstanceAs (Decidable (_ ∧ _))

variable {setting : Setting} {path : List String} {plain changed : Entries}

/-- A setting that is laid over a table makes them differ at its path, by induction on the path. -/
theorem differ_overlayAt (single : setting.isTable = false) (small : ∀ name ∈ path, Text.lowercase name = name)
    (inside : path ≠ []) (held : Entries)
    : Differ setting path held (overlayAt path setting held) := by
  induction path generalizing held with
  | nil => exact absurd rfl inside
  | cons name path ih =>
      have lower := small name List.mem_cons_self
      have others (other : String) (unlike : other ≠ name)
          : (overlayAt (name :: path) setting held).lookup other = held.lookup other := by
        rw [Setting.lookup_overlayAt, lower, if_neg unlike]
      have there := Setting.lookup_overlayAt name path setting held name
      rw [lower, if_pos rfl] at there
      cases path with
      | nil => exact .here others (by rw [there, laid, Setting.overlay_of_not_table single])
      | cons next path =>
          exact .inside others there (ih (fun other member => small other (by simp [member])) (by simp) _)

/-- What is laid over both tables apart from the path keeps the difference, by induction on it. -/
theorem Differ.overlayAt (differ : Differ setting path plain changed) {other : List String}
    (apart : Apart other path) (later : Setting)
    : Differ setting path (overlayAt other later plain) (overlayAt other later changed) := by
  induction differ generalizing other with
  | @here name plain changed others there =>
      refine .here (fun second unlike => Setting.lookup_overlayAt_congr other later (others second unlike)) ?_
      cases other with
      | nil => exact absurd List.nil_prefix apart.1
      | cons first rest =>
          have unlike : name ≠ Text.lowercase first := fun same =>
            apart.2 (by rw [same]; exact List.prefix_append [_] _)
          rw [Setting.lookup_overlayAt, if_neg unlike, there]
  | @inside name path plain changed inner others there differ ih =>
      have outside (second : String) (unlike : second ≠ name) :=
        Setting.lookup_overlayAt_congr other later (others second unlike)
      cases other with
      | nil => exact absurd List.nil_prefix apart.1
      | cons first rest =>
          have before := Setting.lookup_overlayAt first rest later plain name
          have behind := Setting.lookup_overlayAt first rest later changed name
          by_cases same : name = Text.lowercase first
          · rw [if_pos same] at before behind
            have inward : Apart rest path :=
              ⟨fun leads => apart.1 (List.cons_prefix_cons.mpr ⟨same.symm, leads⟩),
                fun leads => apart.2 (List.cons_prefix_cons.mpr ⟨same, leads⟩)⟩
            cases rest with
            | nil => exact absurd List.nil_prefix inward.1
            | cons next rest =>
                refine .inside outside (behind.trans (by rw [there]; rfl)) ?_
                rw [before]
                exact ih inward
          · rw [if_neg same] at before behind
            exact .inside outside (behind.trans there) (by rwa [before])

/-- So does a whole source, by induction on what it gives. -/
theorem Differ.layer (differ : Differ setting path plain changed) {source : Entries}
    (apart : ∀ entry ∈ source, Apart (pathOf entry.1) path)
    : Differ setting path (layer plain source) (layer changed source) := by
  induction source generalizing plain changed with
  | nil => exact differ
  | cons entry source ih =>
      rw [Settings.layer, Settings.layer, List.foldl_cons, List.foldl_cons]
      exact ih (differ.overlayAt (apart entry List.mem_cons_self) entry.2)
        fun later member => apart later (List.mem_cons_of_mem entry member)

end PersonRegistry.Settings
