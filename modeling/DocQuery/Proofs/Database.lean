import DocQuery.Database.Basic
import DocQuery.Proofs.Locality

namespace DocQuery.Database

variable {α β : Type}

section

variable (db : Database)

@[simp] theorem bind_apply (a : Action α) (f : α → Action β) :
    (a >>= f : Action β) db = match a db with
      | (.ok x, db) => f x db
      | (.error e, db) => (.error e, db) := by
  have hbind : (a >>= f : Action β) db = ExceptT.bindCont f (a db).1 (a db).2 := rfl
  rw [hbind]
  rcases a db with ⟨_ | _, db⟩ <;> rfl

@[simp] theorem pure_apply (x : α) : (pure x : Action α) db = (.ok x, db) := rfl

@[simp] theorem throw_apply (e : Error) : (throw e : Action α) db = (.error e, db) := rfl

@[simp] theorem get_apply : (get : Action Database) db = (.ok db, db) := rfl

@[simp] theorem lift_apply (r : Except Error α) : (liftM r : Action α) db = (r, db) := rfl

@[simp] theorem discard_apply (a : Action α) :
    (discard a : Action Unit) db = match a db with
      | (.ok _, db) => (.ok (), db)
      | (.error e, db) => (.error e, db) := by
  have hdiscard : (discard a : Action Unit) = a >>= fun _ => pure () := rfl
  rw [hdiscard, bind_apply]
  rfl

@[simp] theorem onStore_apply (a : Store.Effect α) :
    onStore a db = ((a db.store).1, { db with store := (a db.store).2 }) := rfl

def documents (name : String) : List Json := (db.store.getD name).documents

def nextId : Json := issue (db.issued + 1)

theorem withPreset_of_none (h : db.preset = none) (op : Operation α) :
    withPreset db.preset op = op := by
  rw [h]
  cases op with
  | insert document => cases document <;> rfl
  | _ => rfl

variable [Regex.Engine]

theorem performUnchecked_apply (name : String) (op : Operation α) :
    performUnchecked name op db =
      match Store.perform name db.nextId op db.store with
      | (.ok x, s) => (.ok x, { db with store := s, issued := db.issued + op.takesId.toNat })
      | (.error e, s) => (.error e, { db with store := s }) := by
  simp only [performUnchecked, bind_apply, get_apply, onStore_apply]
  rw [← nextId]
  rcases Store.perform name db.nextId op db.store with ⟨e | x, s⟩ <;> rfl

theorem perform_of_refused {name : String} (h : ¬ Store.accepts name) (op : Operation α) :
    perform name op db = (.error (.invalidDocument (.collectionName name)), db) := by
  simp [perform, collection, h]

theorem perform_of_accepts {name : String} (h : Store.accepts name) (op : Operation α) :
    perform name op db = performUnchecked name (withPreset db.preset op) db := by
  simp [perform, collection, h]

end

end DocQuery.Database
