import TrackFlow.Incidents.Service
import TrackFlow.Inventory.Calls

/-!
# What an error answer says

The inventory and the incident service commit in the middle of a call: they read the row again for
the answer, inside the same `try`, and report a failure there as an unavailable service.

* `error_means_unwritten_iff` : **when a call that raises has written nothing**, for both services.
* `receipt_recorded_twice` : a receipt that was answered with 503, and its retry.
-/

namespace TrackFlow

/-- **When an error answer means that nothing was written.**  For every committed state, every call
and every statement at which the database may raise: a call that raises leaves the committed state
alone, unless its checks pass, it changes something, and it fails behind its `COMMIT`, by the
database, by a client that is missing, or by a row that the response schema refuses. -/
theorem error_means_unwritten_iff (strip : String → String) :
    (∀ (db : Ledger) (request : InventoryService.Request) (fault : Option (ℕ × SqlError)),
      ((∃ e, (request.call db fault).1 = .error e) → (request.call db fault).2 = db) ↔
        ¬(request.Accepted db ∧ request.Changes db ∧
          FailsBehind (request.before db) request.behind (request.ClientMissing db) fault)) ∧
    ∀ (db : Incidents) (request : IncidentService.Request strip) (fault : Option (ℕ × SqlError)),
      ((∃ e, (request.call db fault).1 = .error e) → (request.call db fault).2 = db) ↔
        ¬(request.Accepted db ∧ FailsBehind request.before 1 (request.Unreadable db) fault) :=
  ⟨InventoryService.Request.raises_unchanged_iff, IncidentService.Request.raises_unchanged_iff⟩

/-- One SKU and no movement. -/
def oneSku : Ledger :=
  { Ledger.empty with
    clients := [⟨7, "Shop"⟩]
    skus := ⟨[⟨1, "Lamp", "LAMP-1", 7, 3, .electronics, .LA⟩], by decide⟩ }

/-- A receipt of 5 units. -/
def receipt (id : ℕ) : InventoryService.Request :=
  .recordInbound ⟨1, 5, "PO-1", .LA, five_units_pos⟩ "u-1" (.afterEpoch 0) id

/-- The refresh behind the `COMMIT` fails: the answer is 503, the receipt is recorded, and the retry
records it again. -/
theorem receipt_recorded_twice :
    ¬((∃ e, ((receipt 1).call oneSku (some (4, .other))).1 = .error e) →
        ((receipt 1).call oneSku (some (4, .other))).2 = oneSku) ∧
      ((receipt 1).call oneSku (some (4, .other))).1 = .error (.inventory persistenceFailure) ∧
      ((receipt 2).call ((receipt 1).call oneSku (some (4, .other))).2 none).2.currentStock 1 .LA =
        10 := by
  have hraises : ((receipt 1).call oneSku (some (4, .other))).1 =
      .error (.inventory persistenceFailure) := rfl
  refine ⟨fun h => ?_, hraises, by decide⟩
  have hentries := congrArg Ledger.stockEntries (h ⟨_, hraises⟩)
  exact absurd hentries (by decide)

end TrackFlow
