import RpcForge.Document.Extensions

/-!
# About the interface

Title and version of an interface, whom to ask about it, and under which terms it is offered.
-/

namespace RpcForge

open RpcForge.Json

/-- Whom to ask about an interface. -/
structure Contact where
  /-- A name. -/
  name : Option String := none
  /-- An address. -/
  url : Option String := none
  /-- A mail address. -/
  email : Option String := none
  /-- Further members. -/
  extensions : Extensions := .empty
deriving Inhabited

namespace Contact

/-- Addresses are well-formed, and further members are extensions. -/
def check (contact : Contact) : Check :=
  .first [.optional Wellformed.checkUrl contact.url,
    .optional Wellformed.checkEmail contact.email, contact.extensions.check]

/-- The contact with given members. -/
def build (members : Entries Value) : Contact where
  name := Members.text? members "name"
  url := Members.text? members "url"
  email := Members.text? members "email"
  extensions := .ofMembers .contact members

/-- Read a contact. -/
def ofValue (v : Value) : Except DocumentError Contact :=
  Part.decode (.record .contact) (fun v ↦ build (v.members?.getD [])) v

/-- A contact as an object. -/
def toValue (contact : Contact) : Value :=
  .object <|
    Members.given "name" .string contact.name ++
    Members.given "url" .string contact.url ++
    Members.given "email" .string contact.email ++
    contact.extensions.entries

end Contact

/-- The terms under which an interface is offered. -/
structure License where
  /-- The name of the terms. -/
  name : String
  /-- Where they can be read. -/
  url : Option String := none
  /-- Further members. -/
  extensions : Extensions := .empty
deriving Inhabited

namespace License

/-- The terms have a name, their address is well-formed, and further members are extensions. -/
def check (license : License) : Check :=
  .first [if license.name.isEmpty then .error (.missingField "name") else .pass,
    .optional Wellformed.checkUrl license.url, license.extensions.check]

/-- The terms with given members. -/
def build (members : Entries Value) : License where
  name := Members.text members "name"
  url := Members.text? members "url"
  extensions := .ofMembers .license members

/-- Read the terms. -/
def ofValue (v : Value) : Except DocumentError License :=
  Part.decode (.record .license) (fun v ↦ build (v.members?.getD [])) v

/-- The terms as an object. -/
def toValue (license : License) : Value :=
  .object <|
    Members.always "name" (.string license.name) ++
    Members.given "url" .string license.url ++
    license.extensions.entries

end License

/-- What a document says about the interface as a whole. -/
structure Info where
  /-- The title. -/
  title : String
  /-- A description. -/
  description : Option String := none
  /-- Where the terms of service can be read. -/
  termsOfService : Option String := none
  /-- Whom to ask. -/
  contact : Option Contact := none
  /-- Under which terms the interface is offered. -/
  license : Option License := none
  /-- The version of the interface, in any form. -/
  version : String
  /-- Further members. -/
  extensions : Extensions := .empty
deriving Inhabited

namespace Info

/-- Set the description. -/
def withDescription (info : Info) (description : String) : Info :=
  { info with description := some description }

/-- Say whom to ask. -/
def withContact (info : Info) (contact : Contact) : Info :=
  { info with contact := some contact }

/-- Say under which terms the interface is offered. -/
def withLicense (info : Info) (license : License) : Info :=
  { info with license := some license }

/-- A text that has to be filled is not blank. -/
def checkFilled (field text : String) : Check :=
  if Text.isBlankText text then .error (.missingField field) else .pass

/-- Title and version are filled, addresses are well-formed, contact and terms obey their rules, and
further members are extensions. -/
def check (info : Info) : Check :=
  .first [checkFilled "title" info.title, checkFilled "version" info.version,
    .optional Wellformed.checkUrl info.termsOfService, .optional Contact.check info.contact,
    .optional License.check info.license, info.extensions.check]

/-- The information with given members. -/
def build (members : Entries Value) : Info where
  title := Members.text members "title"
  description := Members.text? members "description"
  termsOfService := Members.text? members "termsOfService"
  contact := (Members.members? members "contact").map Contact.build
  license := (Members.members? members "license").map License.build
  version := Members.text members "version"
  extensions := .ofMembers .info members

/-- Read the information. -/
def ofValue (v : Value) : Except DocumentError Info :=
  Part.decode (.record .info) (fun v ↦ build (v.members?.getD [])) v

/-- The information as an object. -/
def toValue (info : Info) : Value :=
  .object <|
    Members.always "title" (.string info.title) ++
    Members.given "description" .string info.description ++
    Members.given "termsOfService" .string info.termsOfService ++
    Members.given "contact" Contact.toValue info.contact ++
    Members.given "license" License.toValue info.license ++
    Members.always "version" (.string info.version) ++
    info.extensions.entries

end Info

end RpcForge
