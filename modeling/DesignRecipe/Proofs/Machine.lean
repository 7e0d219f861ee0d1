import DesignRecipe.Machine

/-!
# Runs on a machine

What a run needs and what it leads to are properties of the machine before and after it.
A run that is put together of others is treated part by part: the property between two parts
may tell of the result of the first (`DesignRecipe.Leads.bind`).

Most parts of a run neither read nor write a file. They keep whatever is said of the files
(`DesignRecipe.Keeps`).
-/

namespace DesignRecipe

variable {α β : Type}

/-- **A run leads from one property to another**, which may tell of the result. -/
def Leads (P : Machine → Prop) (c : StateM Machine α) (Q : α → Machine → Prop) : Prop :=
  ∀ m, P m → Q (c.run m).1 (c.run m).2

/-- A run keeps what is said of the files. -/
def Keeps (I : Disk → Prop) (c : StateM Machine α) : Prop :=
  Leads (fun m => I m.disk) c fun _ m => I m.disk

namespace Leads

variable {P P' : Machine → Prop} {c : StateM Machine α} {next : α → StateM Machine β}
  {Q : α → Machine → Prop} {R : β → Machine → Prop}

theorem pure {a : α} (h : ∀ m, P m → Q a m) : Leads P (Pure.pure a) Q := h

/-- **Runs one after the other.** -/
theorem bind (h : Leads P c Q) (h' : ∀ a, Leads (Q a) (next a) R) : Leads P (c >>= next) R :=
  fun m hm => h' _ _ (h m hm)

theorem weaken (h : Leads P' c Q) (hP : ∀ m, P m → P' m) : Leads P c Q :=
  fun m hm => h m (hP m hm)

/-- What follows from the property before a run may be supposed of the run. -/
theorem suppose {p : Prop} (h : ∀ m, P m → p) (h' : p → Leads P c Q) : Leads P c Q :=
  fun m hm => h' (h m hm) m hm

end Leads

namespace Keeps

variable {I : Disk → Prop} {c : StateM Machine α} {next : α → StateM Machine β}

theorem pure (a : α) : Keeps I (Pure.pure a) := fun _ h => h

theorem bind (h : Keeps I c) (h' : ∀ a, Keeps I (next a)) : Keeps I (c >>= next) :=
  Leads.bind h h'

/-! ### The host -/

theorem occupied (path : RawText) : Keeps I (Host.occupied path) := fun _ h => h

theorem ask (question : Text) : Keeps I (Host.ask question) := fun _ h => h

theorem err (text : Text) : Keeps I (Host.err text) := fun _ h => h

/-- A write keeps what it keeps where it succeeds. -/
theorem write {path : RawText} {s : Text} (h : ∀ d d', I d → d.write path s = .ok d' → I d') :
    Keeps I (Host.write path s) := by
  intro m hm
  change I (m.write path s).2.disk
  rw [Machine.write]
  cases written : m.disk.write path s with
  | error => exact hm
  | ok d' => exact h _ _ hm written

end Keeps

end DesignRecipe
