import SourceFacts.Feature

/-!
# The catalog that comes with the library

The features of some widely used libraries.
-/

namespace SourceFacts.BuiltinCatalog

/-- What narrows down a feature in one language family. -/
def narrowed (family : Family) (q : ConstructQuery) : Option (Table ConstructQuery) :=
  some (.ofPairs [(family.name, q)])

/-- A method with one of the names that a regular expression admits. -/
def method (regex : String) : ConstructQuery := ⟨some regex, none, none, none⟩

/-- A decorator with one of the names that a regular expression admits. -/
def decorator (regex : String) : ConstructQuery := ⟨none, some regex, none, none⟩

/-- A base class that a regular expression admits. -/
def superclass (regex : String) : ConstructQuery := ⟨none, none, none, some regex⟩

/-- The features of FastAPI. -/
def fastapi : CatalogFile where
  version := 1
  language := "python"
  library := "fastapi"
  features := [
    { key := "http_endpoint"
      library := ""
      paths := ["fastapi.APIRouter", "fastapi.FastAPI"]
      target := .function
      concept := .decorator
      strategy := .variableBound
      constructs := narrowed .python
        (decorator "^(get|post|put|patch|delete|head|options|api_route|websocket)$")
      description := "Route handler registered on an application or router."
      startpoint := true },
    { key := "middleware"
      library := ""
      paths := ["fastapi.FastAPI"]
      target := .function
      concept := .call
      strategy := .variableBound
      constructs := narrowed .python (method "^add_middleware$")
      description := "Middleware registration."
      startpoint := false },
    { key := "router_include"
      library := ""
      paths := ["fastapi.FastAPI", "fastapi.APIRouter"]
      target := .function
      concept := .call
      strategy := .variableBound
      constructs := narrowed .python (method "^include_router$")
      description := "Router mounted on an application."
      startpoint := false },
    { key := "dependency"
      library := ""
      paths := ["fastapi.Depends"]
      target := .function
      concept := .call
      strategy := .direct
      constructs := none
      description := "Dependency injection marker."
      startpoint := false }]

/-- The features of Celery. -/
def celery : CatalogFile where
  version := 1
  language := "python"
  library := "celery"
  features := [
    { key := "task"
      library := ""
      paths := ["celery.Celery"]
      target := .function
      concept := .decorator
      strategy := .variableBound
      constructs := narrowed .python (decorator "^task$")
      description := "Task declared on a Celery application."
      startpoint := true },
    { key := "shared_task"
      library := ""
      paths := ["celery.shared_task"]
      target := .function
      concept := .decorator
      strategy := .direct
      constructs := none
      description := "Task declared without an application."
      startpoint := true }]

/-- The features of SQLAlchemy. -/
def sqlalchemy : CatalogFile where
  version := 1
  language := "python"
  library := "sqlalchemy"
  features := [
    { key := "engine"
      library := ""
      paths := ["sqlalchemy.create_engine", "sqlalchemy.ext.asyncio.create_async_engine"]
      target := .function
      concept := .call
      strategy := .direct
      constructs := none
      description := "Engine construction."
      startpoint := false },
    { key := "declarative_model"
      library := ""
      paths := ["sqlalchemy.orm.DeclarativeBase", "sqlalchemy.orm.declarative_base"]
      target := .type
      concept := .inheritance
      strategy := .direct
      constructs := none
      description := "ORM model on a declarative base."
      startpoint := false }]

/-- The features of Flask-SQLAlchemy. -/
def flaskSqlalchemy : CatalogFile where
  version := 1
  language := "python"
  library := "flask_sqlalchemy"
  features := [
    { key := "model"
      library := ""
      paths := ["flask_sqlalchemy.SQLAlchemy"]
      target := .type
      concept := .inheritance
      strategy := .variableBound
      constructs := narrowed .python (superclass "[.]Model$")
      description := "Model declared on the extension's db.Model."
      startpoint := false }]

/-- The features of pytest. -/
def pytest : CatalogFile where
  version := 1
  language := "python"
  library := "pytest"
  features := [
    { key := "fixture"
      library := ""
      paths := ["pytest", "pytest.fixture"]
      target := .function
      concept := .decorator
      strategy := .direct
      constructs := narrowed .python (decorator "^fixture$")
      description := "Test fixture."
      startpoint := false }]

/-- The features of NestJS. -/
def nestjs : CatalogFile where
  version := 1
  language := "typescript"
  library := "nestjs"
  features := [
    { key := "controller"
      library := ""
      paths := ["@nestjs/common.Controller"]
      target := .type
      concept := .decorator
      strategy := .direct
      constructs := narrowed .typescript (decorator "^Controller$")
      description := "Controller class."
      startpoint := false },
    { key := "http_endpoint"
      library := ""
      paths := ["@nestjs/common.Get", "@nestjs/common.Post", "@nestjs/common.Put",
        "@nestjs/common.Patch", "@nestjs/common.Delete"]
      target := .function
      concept := .decorator
      strategy := .direct
      constructs := narrowed .typescript (decorator "^(Get|Post|Put|Patch|Delete)$")
      description := "Route handler method."
      startpoint := true },
    { key := "injectable"
      library := ""
      paths := ["@nestjs/common.Injectable"]
      target := .type
      concept := .decorator
      strategy := .direct
      constructs := narrowed .typescript (decorator "^Injectable$")
      description := "Provider class."
      startpoint := false }]

/-- The features of Express. -/
def express : CatalogFile where
  version := 1
  language := "typescript"
  library := "express"
  features := [
    { key := "http_endpoint"
      library := ""
      paths := ["express", "express.Router"]
      target := .function
      concept := .call
      strategy := .variableBound
      constructs := narrowed .typescript (method "^(get|post|put|patch|delete|all)$")
      description := "Route registered on an application or router."
      startpoint := true },
    { key := "middleware"
      library := ""
      paths := ["express", "express.Router"]
      target := .function
      concept := .call
      strategy := .variableBound
      constructs := narrowed .typescript (method "^use$")
      description := "Middleware registration."
      startpoint := false }]

/-- The features of Prisma. -/
def prisma : CatalogFile where
  version := 1
  language := "typescript"
  library := "prisma"
  features := [
    { key := "client"
      library := ""
      paths := ["@prisma/client.PrismaClient"]
      target := .function
      concept := .call
      strategy := .direct
      constructs := none
      description := "Database client construction."
      startpoint := false }]

/-- The files of the catalog, in order. -/
def files : List CatalogFile :=
  [fastapi, celery, sqlalchemy, flaskSqlalchemy, pytest, nestjs, express, prisma]

end SourceFacts.BuiltinCatalog
