/-!
# Headers of generated files

The text that stands in front of the declarations of a generated file.
-/

namespace DslBindings.Header

/-- The comment at the start of every generated file. -/
def notice : String :=
  "/*
 * Copyright 2018 the original author or authors.
 *
 * Licensed under the Apache License, Version 2.0 (the \"License\");
 * you may not use this file except in compliance with the License.
 * You may obtain a copy of the License at
 *
 *      http://www.apache.org/licenses/LICENSE-2.0
 *
 * Unless required by applicable law or agreed to in writing, software
 * distributed under the License is distributed on an \"AS IS\" BASIS,
 * WITHOUT WARRANTIES OR CONDITIONS OF ANY KIND, either express or implied.
 * See the License for the specific language governing permissions and
 * limitations under the License.
 */
"

/-- What stands in front of accessors. -/
def accessors : String :=
  notice ++ "\npackage org.gradle.kotlin.dsl\n\n"
    ++ "import org.gradle.api.Project\nimport org.gradle.kotlin.dsl.*\n"

/-- What stands in front of extension functions. -/
def extensions : String :=
  notice ++ "\npackage org.gradle.kotlin.dsl\n\nimport org.gradle.api.Action\n"

end DslBindings.Header
