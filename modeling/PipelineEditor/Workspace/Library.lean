import PipelineEditor.Plugin.Fallback
import PipelineEditor.Plugin.Widget

/-!
# The library of widget configurations

Every plugin has at most one entry in the library, under a key made of its name and its type: a
configuration, or the reason why the file that is there cannot be used.

* `WidgetLibrary.key` — the key of a plugin;
* `WidgetLibrary.fetch` — **the configuration of a plugin, or why there is none**.
-/

namespace PipelineEditor

/-- A widget file after reading. -/
abbrev WidgetEntry : Type := Except FallbackReason WidgetConfig

/-- The widget configurations of a workspace. -/
structure WidgetLibrary where
  entries : SortedMap WidgetEntry

namespace WidgetLibrary

/-- The library without entries. -/
def empty : WidgetLibrary := ⟨SortedMap.empty⟩

/-- The key of the plugin with a type and a name. -/
def key (type name : String) : String := name ++ "-" ++ type

/-- Puts an entry under a key, in the place of an earlier one. -/
def insert (l : WidgetLibrary) (key : String) (entry : WidgetEntry) : WidgetLibrary :=
  ⟨l.entries.insert key entry⟩

/-- The configuration of the plugin with a type and a name. -/
def fetch (l : WidgetLibrary) (type name : String) : WidgetEntry :=
  (l.entries.get? (key type name)).getD (.error .missing)

/-- The number of entries. -/
def size (l : WidgetLibrary) : Nat := l.entries.size

/-- Whether there are no entries. -/
def isEmpty (l : WidgetLibrary) : Bool := l.entries.isEmpty

/-- An inserted entry is found under its plugin. -/
theorem fetch_insert_self (l : WidgetLibrary) (type name : String) (entry : WidgetEntry) :
    (l.insert (key type name) entry).fetch type name = entry := by
  simp [fetch, insert]

/-- An inserted entry leaves the other plugins alone. -/
theorem fetch_insert_of_ne (l : WidgetLibrary) {type name other : String} (entry : WidgetEntry)
    (h : key type name ≠ other) :
    (l.insert other entry).fetch type name = l.fetch type name := by
  simp [fetch, insert, SortedMap.get?_insert_of_ne _ _ h]

end WidgetLibrary

end PipelineEditor
